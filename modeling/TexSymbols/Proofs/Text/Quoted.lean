import TexSymbols.Text.Quoted

/-!
# Quoted text is visible

* `isVisible_of_mem_quoted`, `isVisible_of_mem_quotedList` — every character of a quoted text is
  visible, whatever was quoted; so there is no line break in it.
-/

namespace TexSymbols.Text

variable {c : Char} {t : Text}

theorem exists_digit_of_mem_hexadecimal {n : Nat} (h : c ∈ hexadecimal n) :
    ∃ d < 16, c = Nat.digitChar d := by
  induction n using Nat.strongRecOn with
  | ind n ih =>
    rw [hexadecimal, Nat.toDigits_eq_if (by decide)] at h
    split at h
    · rename_i hn
      exact ⟨n, hn, List.mem_singleton.1 h⟩
    · rename_i hn
      rcases List.mem_append.1 h with h | h
      · exact ih (n / 16) (by omega) h
      · exact ⟨n % 16, Nat.mod_lt n (by decide), List.mem_singleton.1 h⟩

theorem isVisible_digitChar {d : Nat} (h : d < 16) : isVisible (Nat.digitChar d) = true := by
  have hall : (List.range 16).all (fun d => isVisible (Nat.digitChar d)) = true := by
    decide +kernel
  exact List.all_eq_true.1 hall d (List.mem_range.2 h)

/-- The characters that quoting adds. -/
def quotingSigns : Text := "\"\\nrt0u\x7b\x7d[], "

theorem isVisible_of_mem_quotingSigns (h : c ∈ quotingSigns) : isVisible c = true := by
  have hall : quotingSigns.all isVisible = true := by decide +kernel
  exact List.all_eq_true.1 hall c h

theorem isVisible_of_mem_signs {signs : Text} (hall : signs.all (· ∈ quotingSigns) = true)
    (h : c ∈ signs) : isVisible c = true :=
  isVisible_of_mem_quotingSigns (of_decide_eq_true (List.all_eq_true.1 hall c h))

theorem isVisible_of_mem_quotedChar {d : Char} (h : c ∈ quotedChar d) : isVisible c = true := by
  unfold quotedChar at h
  split at h
  · exact isVisible_of_mem_signs rfl h
  split at h
  · exact isVisible_of_mem_signs rfl h
  split at h
  · exact isVisible_of_mem_signs rfl h
  split at h
  · exact isVisible_of_mem_signs rfl h
  split at h
  · exact isVisible_of_mem_signs rfl h
  split at h
  · exact isVisible_of_mem_signs rfl h
  split at h
  · rename_i hd
    rwa [List.mem_singleton.1 h]
  · rw [List.mem_append, List.mem_append] at h
    rcases h with (h | h) | h
    · exact isVisible_of_mem_signs rfl h
    · obtain ⟨n, hn, rfl⟩ := exists_digit_of_mem_hexadecimal h
      exact isVisible_digitChar hn
    · exact isVisible_of_mem_signs rfl h

theorem isVisible_of_mem_quoted (h : c ∈ quoted t) : isVisible c = true := by
  have hquote : isVisible '"' = true := isVisible_of_mem_quotingSigns (by decide)
  rw [quoted, List.mem_cons, List.mem_append, List.mem_singleton, List.mem_flatMap] at h
  rcases h with rfl | ⟨d, -, h⟩ | rfl
  · exact hquote
  · exact isVisible_of_mem_quotedChar h
  · exact hquote

theorem mem_join {sep : Text} {ts : List Text} (h : c ∈ join sep ts) :
    c ∈ sep ∨ ∃ t ∈ ts, c ∈ t := by
  fun_induction join sep ts with
  | case1 => simp at h
  | case2 p => exact .inr ⟨p, List.mem_singleton_self p, h⟩
  | case3 p q ps ih =>
    rw [List.mem_append, List.mem_append] at h
    rcases h with (h | h) | h
    · exact .inr ⟨p, List.mem_cons_self, h⟩
    · exact .inl h
    · refine (ih h).imp_right fun ⟨t, ht, hc⟩ => ?_
      exact ⟨t, List.mem_cons_of_mem _ ht, hc⟩

theorem isVisible_of_mem_quotedList {ts : List Text} (h : c ∈ quotedList ts) :
    isVisible c = true := by
  rw [quotedList, List.mem_append, List.mem_append] at h
  rcases h with (h | h) | h
  · exact isVisible_of_mem_signs rfl h
  · rcases mem_join h with h | ⟨t, ht, h⟩
    · exact isVisible_of_mem_signs rfl h
    · obtain ⟨u, -, rfl⟩ := List.mem_map.1 ht
      exact isVisible_of_mem_quoted h
  · exact isVisible_of_mem_signs rfl h

end TexSymbols.Text
