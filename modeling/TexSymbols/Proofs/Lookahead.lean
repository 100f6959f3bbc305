import Mathlib.Data.List.Basic
import TexSymbols.Lookahead

/-!
# What a cursor hands out, seen on its list

* `toList_of_next_eq_some`, `eq_of_next_eq_none` — `next` takes the head of the list, if there is
  one.
* `toList_of_nextIf_eq_some`, `toList_of_nextIf_eq_none` — `nextIf` takes it exactly if the
  predicate accepts it.
-/

namespace TexSymbols.Lookahead

variable {α : Type} {s t : Lookahead α} {x : α} {p : α → Bool}

theorem toList_of_next_eq_some (h : s.next = (some x, t)) : s.toList = x :: t.toList := by
  obtain ⟨hhead, htail⟩ := s.next_eq
  rw [h] at hhead htail
  rw [htail, List.cons_head?_tail hhead.symm]

/-- A cursor at its end stays as it is. -/
theorem eq_of_next_eq_none (h : s.next = (none, t)) : s.toList = [] ∧ t = s := by
  obtain ⟨b, r⟩ := s
  cases b <;> cases r <;> simp_all [next, toList]

theorem toList_of_nextIf_eq_some (h : s.nextIf p = (some x, t)) :
    s.toList = x :: t.toList ∧ p x = true := by
  obtain ⟨hhead, htail⟩ := s.nextIf_eq p
  rw [h] at hhead htail
  obtain ⟨hx, hp⟩ := Option.filter_eq_some_iff.1 hhead.symm
  simp only [hx, Option.filter_some, hp, if_true, Option.isSome_some] at htail
  exact ⟨by rw [htail, List.cons_head?_tail hx], hp⟩

theorem toList_of_nextIf_eq_none (h : s.nextIf p = (none, t)) :
    t.toList = s.toList ∧ ∀ x ∈ s.toList.head?, p x = false := by
  obtain ⟨hhead, htail⟩ := s.nextIf_eq p
  rw [h] at hhead htail
  have hnone : s.toList.head?.filter p = none := hhead.symm
  refine ⟨by simpa [hnone] using htail, fun x hx => ?_⟩
  rw [Option.mem_def.1 hx, Option.filter_some] at hnone
  simpa using hnone

end TexSymbols.Lookahead
