import Mathlib.Data.List.Basic
import TexSymbols.Text.Blank

/-!
# Texts without blanks at their ends

* `trimStart_eq_self_iff`, `trimEnd_eq_self_iff` — trimming changes nothing exactly if there is no
  blank at that end.
* `trim_trimStart_of_suffix` — what is left at the end of a trimmed text needs trimming at its start
  only.
* `trim_concat_prefix_iff` — a trimmed text and what follows the whole one are a beginning only if
  there was nothing to trim.
-/

namespace TexSymbols.Text

variable {t u : Text}

theorem trimStart_eq_self_iff : trimStart t = t ↔ ∀ c ∈ t.head?, isBlank c = false := by
  cases t with
  | nil => simp [trimStart]
  | cons c r =>
    cases h : isBlank c with
    | true =>
      -- cutting the blank off makes the text shorter
      have hlength := (List.dropWhile_suffix isBlank (l := r)).length_le
      have hne : r.dropWhile isBlank ≠ c :: r := by
        intro heq
        rw [heq, List.length_cons] at hlength
        omega
      simpa [trimStart, h] using hne
    | false => simp [trimStart, h]

theorem trimEnd_eq_self_iff : trimEnd t = t ↔ ∀ c ∈ t.getLast?, isBlank c = false := by
  rw [trimEnd, List.reverse_eq_iff, ← List.head?_reverse]
  exact trimStart_eq_self_iff

theorem trimEnd_trim (t : Text) : trimEnd (trim t) = trim t := trimEnd_trimEnd _

theorem trimEnd_eq_self_of_suffix (h : trimEnd t = t) (hu : u <:+ t) : trimEnd u = u := by
  rw [trimEnd_eq_self_iff] at h ⊢
  intro c hc
  refine h c ?_
  obtain ⟨before, rfl⟩ := hu
  rw [List.getLast?_append, Option.mem_def.1 hc]
  rfl

/-- What is left at the end of a trimmed text, trimmed at its start. -/
theorem trim_trimStart_of_suffix (hu : u <:+ trim t) :
    trim (trimStart u) = trimStart u := by
  have hend : trimEnd (trimStart u) = trimStart u :=
    trimEnd_eq_self_of_suffix (trimEnd_trim t) ((List.dropWhile_suffix isBlank).trans hu)
  rw [trim, trimStart_trimStart, hend]

theorem isBlank_of_mem_head?_trim {c : Char} (h : c ∈ (trim t).head?) : isBlank c = false :=
  trimStart_eq_self_iff.1 (trimStart_trimEnd (trimStart_trimStart t)) c h

/-- A text goes on with blanks where those at its end were cut off. -/
theorem exists_blanks (t : Text) :
    ∃ blanks, t = trimEnd t ++ blanks ∧ ∀ c ∈ blanks, isBlank c = true := by
  refine ⟨(t.reverse.takeWhile isBlank).reverse, ?_, ?_⟩
  · rw [trimEnd, ← List.reverse_append, List.takeWhile_append_dropWhile, List.reverse_reverse]
  · intro c hc
    exact List.all_eq_true.1 List.all_takeWhile c (List.mem_reverse.1 hc)

/-- **A trimmed text with what follows the whole one** is a beginning only if there was nothing to
trim. -/
theorem trim_concat_prefix_iff {sep : Char} (hsep : isBlank sep = false) :
    trim t ++ [sep] <+: t ++ sep :: u ↔ trim t = t := by
  constructor
  · intro h
    have hstart : trimStart t = t := by
      rw [trimStart_eq_self_iff]
      intro c hc
      -- both begin with the same character, and the left one does not begin with a blank
      have hfirst : (trim t ++ [sep]).head? = some c := by
        obtain ⟨rest, hrest⟩ := h
        have hboth : (trim t ++ [sep] ++ rest).head? = some c := by
          rw [hrest, List.head?_append, Option.mem_def.1 hc, Option.some_or]
        rw [← hboth]
        cases trim t <;> rfl
      rw [List.head?_append] at hfirst
      rcases Option.or_eq_some_iff.1 hfirst with htrim | ⟨-, heq⟩
      · exact isBlank_of_mem_head?_trim htrim
      · cases heq
        exact hsep
    obtain ⟨blanks, ht, hblanks⟩ := exists_blanks t
    rw [trim, hstart] at h ⊢
    have hafter : [sep] <+: blanks ++ sep :: u := by
      rw [← List.prefix_append_right_inj (trimEnd t), ← List.append_assoc, ← ht]
      exact h
    cases blanks with
    | nil => rw [← List.append_nil (trimEnd t), ← ht]
    | cons d rest =>
      -- the blank would be the separator
      obtain ⟨heq, -⟩ := List.cons_prefix_cons.1 hafter
      have hblank := hblanks d List.mem_cons_self
      rw [← heq, hsep] at hblank
      cases hblank
  · intro h
    rw [h]
    exact ⟨u, by rw [List.append_assoc, List.singleton_append]⟩

end TexSymbols.Text
