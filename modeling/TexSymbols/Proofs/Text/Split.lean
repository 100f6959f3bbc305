import Mathlib.Data.List.Basic
import TexSymbols.Text.Blank

/-!
# Cutting a text

* `splitOn_eq` — `splitOn` is that of the library of lists.
* `splitOnce_eq_some_iff`, `splitOnce_eq_none_iff` — `splitOnce` cuts at the first occurrence.
* `count_eq_one_iff` — a character that occurs once cuts a text in one way.
* `splitLast_eq_some`, `splitLast_eq_none_iff` — `splitLast` cuts at an occurrence, if there is one.
* `trim_subset`, `length_trim_le` — trimming adds nothing.
-/

namespace TexSymbols.Text

variable {sep : Char} {t a b : Text}

theorem splitOn_eq (sep : Char) (t : Text) : splitOn sep t = List.splitOn sep t := by
  induction t with
  | nil => rfl
  | cons c r ih =>
    rw [splitOn, List.splitOn_cons_eq_if_modifyHead, ih]
    by_cases h : c = sep
    · simp [h]
    · rw [if_neg h, if_neg (by simpa using h)]
      cases hr : List.splitOn sep r with
      | nil => exact absurd hr (List.splitOn_ne_nil sep r)
      | cons p ps => rfl

theorem splitOnce_eq_none_iff : splitOnce sep t = none ↔ sep ∉ t := by
  induction t with
  | nil => simp [splitOnce]
  | cons c r ih =>
    by_cases h : c = sep
    · simp [splitOnce, h]
    · simp [splitOnce, h, ih, Ne.symm h]

theorem splitOnce_append (h : sep ∉ a) (b : Text) :
    splitOnce sep (a ++ sep :: b) = some (a, b) := by
  induction a with
  | nil => simp [splitOnce]
  | cons c r ih =>
    rw [List.mem_cons, not_or] at h
    simp [splitOnce, Ne.symm h.1, ih h.2]

theorem splitOnce_eq_some_iff : splitOnce sep t = some (a, b) ↔ t = a ++ sep :: b ∧ sep ∉ a := by
  constructor
  · intro h
    induction t generalizing a with
    | nil => simp [splitOnce] at h
    | cons c r ih =>
      by_cases hc : c = sep
      · rw [splitOnce, if_pos hc] at h
        cases h
        exact ⟨by rw [hc]; rfl, List.not_mem_nil⟩
      · rw [splitOnce, if_neg hc] at h
        obtain ⟨⟨a', b'⟩, hr, hp⟩ := Option.map_eq_some_iff.1 h
        cases hp
        obtain ⟨rfl, ha⟩ := ih hr
        exact ⟨rfl, by simp [ha, Ne.symm hc]⟩
  · rintro ⟨rfl, ha⟩
    exact splitOnce_append ha b

/-- A character that occurs exactly once cuts the text into two parts without it. -/
theorem count_eq_one_iff : t.count sep = 1 ↔ ∃ a b, t = a ++ sep :: b ∧ sep ∉ a ∧ sep ∉ b := by
  constructor
  · intro h
    have hmem : sep ∈ t := List.count_pos_iff.1 (by omega)
    cases hs : splitOnce sep t with
    | none => exact absurd hmem (splitOnce_eq_none_iff.1 hs)
    | some p =>
      obtain ⟨rfl, ha⟩ := splitOnce_eq_some_iff.1 hs
      rw [List.count_append, List.count_eq_zero_of_not_mem ha, List.count_cons_self] at h
      exact ⟨p.1, p.2, rfl, ha, List.count_eq_zero.1 (by omega)⟩
  · rintro ⟨a, b, rfl, ha, hb⟩
    rw [List.count_append, List.count_eq_zero_of_not_mem ha, List.count_cons_self,
      List.count_eq_zero_of_not_mem hb]

/-- What stands before the first separator. -/
theorem takeWhile_append (h : sep ∉ a) (b : Text) : (a ++ sep :: b).takeWhile (· ≠ sep) = a := by
  have hall : ∀ c ∈ a, decide (c ≠ sep) = true := fun c hc => by
    simpa using fun he : c = sep => h (he ▸ hc)
  rw [List.takeWhile_append_of_pos hall, List.takeWhile_cons_of_neg (by simp), List.append_nil]

theorem splitLast_eq_some (h : splitLast sep t = some (a, b)) : t = a ++ sep :: b := by
  induction t generalizing a b with
  | nil => cases h
  | cons c r ih =>
    rw [splitLast] at h
    split at h
    · rename_i p hp
      cases h
      exact congrArg (c :: ·) (ih hp)
    · split at h
      · rename_i hc
        cases h
        rw [hc]
        rfl
      · cases h

theorem splitLast_eq_none_iff : splitLast sep t = none ↔ sep ∉ t := by
  induction t with
  | nil => simp [splitLast]
  | cons c r ih =>
    rw [splitLast]
    cases hr : splitLast sep r with
    | some p =>
      have hmem : sep ∈ r := by
        refine Decidable.not_not.1 fun hnot => ?_
        rw [ih.2 hnot] at hr
        cases hr
      simp [hmem]
    | none =>
      have hnot := ih.1 hr
      by_cases h : c = sep
      · simp [h]
      · simp [h, hnot, Ne.symm h]

/-- Trimming adds nothing. -/
theorem trim_subset (t : Text) : trim t ⊆ t := by
  intro c hc
  have hstart : c ∈ trimStart t := by
    have hreverse := (List.dropWhile_suffix isBlank).subset (List.mem_reverse.1 hc)
    exact List.mem_reverse.1 hreverse
  exact (List.dropWhile_suffix isBlank).subset hstart

theorem length_trim_le (t : Text) : (trim t).length ≤ t.length := by
  have hstart := (List.dropWhile_suffix isBlank (l := t)).length_le
  have hend := (List.dropWhile_suffix isBlank (l := (trimStart t).reverse)).length_le
  rw [List.length_reverse] at hend
  rw [trim, trimEnd, List.length_reverse]
  exact Nat.le_trans hend hstart

end TexSymbols.Text
