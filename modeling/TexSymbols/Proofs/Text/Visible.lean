import Mathlib.Data.List.Chain
import TexSymbols.Text.Visible

/-!
# Hidden characters

* `mem_takeWhile_of_sorted` — in a sorted list, the search up to a bound misses nothing below it.
* `isVisible_eq_false` — a character in any of the hidden ranges is not visible.
-/

namespace TexSymbols

/-- In a list that is sorted by `f`, all members up to a bound are taken. -/
theorem mem_takeWhile_of_sorted {α : Type} {f : α → Nat} {l : List α}
    (hl : l.Pairwise fun a b => f a ≤ f b) {a : α} {n : Nat} (ha : a ∈ l) (hn : f a ≤ n) :
    a ∈ l.takeWhile (f · ≤ n) := by
  induction l with
  | nil => cases ha
  | cons b l ih =>
    rw [List.pairwise_cons] at hl
    have hb : f b ≤ n := by
      rcases List.mem_cons.1 ha with rfl | ha
      · exact hn
      · exact Nat.le_trans (hl.1 a ha) hn
    rw [List.takeWhile_cons_of_pos (by simpa using hb)]
    rcases List.mem_cons.1 ha with rfl | ha
    · exact List.mem_cons_self
    · exact List.mem_cons_of_mem b (ih hl.2 ha)

theorem sorted_hiddenRanges : hiddenRanges.Pairwise fun a b => a.1 ≤ b.1 := by
  have hchain : hiddenRanges.IsChain fun a b => a.1 ≤ b.1 := by decide +kernel
  have htrans : IsTrans (Nat × Nat) fun a b => a.1 ≤ b.1 := ⟨fun _ _ _ => Nat.le_trans⟩
  exact List.isChain_iff_pairwise.1 hchain

/-- **A character in a hidden range is not visible.** -/
theorem isVisible_eq_false {range : Nat × Nat} {c : Char} (hrange : range ∈ hiddenRanges)
    (hc : range.1 ≤ c.toNat ∧ c.toNat ≤ range.2) : isVisible c = false := by
  have hmem := mem_takeWhile_of_sorted sorted_hiddenRanges hrange hc.1
  rw [isVisible, Bool.not_eq_false', List.any_eq_true]
  exact ⟨range, hmem, by simpa using hc.2⟩

end TexSymbols
