import Mathlib.Data.List.Induction
import Mathlib.Data.List.Nodup
import TexSymbols.Text

/-!
# Lists without repetitions

* `mem_distinct`, `nodup_distinct` — `distinct` holds the elements of a list, each once.
* `distinct_eq_self` — it changes nothing where nothing is repeated.
* `distinct_eq_eraseDups` — what it leaves out are the later repetitions.
-/

namespace TexSymbols.Text

variable {ts : List Text} {t : Text}

theorem distinct_concat_of_mem (h : t ∈ distinct ts) : distinct (ts ++ [t]) = distinct ts := by
  unfold distinct at h ⊢
  rw [List.foldl_append, List.foldl_cons, List.foldl_nil, if_pos h]

theorem distinct_concat_of_notMem (h : t ∉ distinct ts) :
    distinct (ts ++ [t]) = distinct ts ++ [t] := by
  unfold distinct at h ⊢
  rw [List.foldl_append, List.foldl_cons, List.foldl_nil, if_neg h]

theorem mem_distinct : t ∈ distinct ts ↔ t ∈ ts := by
  induction ts using List.reverseRecOn with
  | nil => simp [distinct]
  | append_singleton ts u ih =>
    rw [List.mem_append, List.mem_singleton]
    by_cases hu : u ∈ distinct ts
    · rw [distinct_concat_of_mem hu, ih]
      refine ⟨.inl, ?_⟩
      rintro (h | rfl)
      · exact h
      · exact ih.1 hu
    · rw [distinct_concat_of_notMem hu, List.mem_append, List.mem_singleton, ih]

theorem nodup_distinct (ts : List Text) : (distinct ts).Nodup := by
  induction ts using List.reverseRecOn with
  | nil => exact List.nodup_nil
  | append_singleton ts u ih =>
    by_cases hu : u ∈ distinct ts
    · rwa [distinct_concat_of_mem hu]
    · rw [distinct_concat_of_notMem hu, ← List.concat_eq_append]
      exact ih.concat hu

/-- Nothing is left out of a list without repetitions. -/
theorem distinct_eq_self (h : ts.Nodup) : distinct ts = ts := by
  induction ts using List.reverseRecOn with
  | nil => rfl
  | append_singleton ts u ih =>
    obtain ⟨hts, -, hu⟩ := List.nodup_append'.1 h
    have hnew : u ∉ distinct ts := by
      rw [mem_distinct]
      simpa using hu
    rw [distinct_concat_of_notMem hnew, ih hts]

/-- Later repetitions are left out, and nothing else. -/
theorem distinct_eq_eraseDups (ts : List Text) : distinct ts = ts.eraseDups := by
  induction ts using List.reverseRecOn with
  | nil => rfl
  | append_singleton ts u ih =>
    rw [List.eraseDups_append, ← ih]
    by_cases hu : u ∈ ts
    · rw [distinct_concat_of_mem (mem_distinct.2 hu)]
      simp [List.removeAll, hu]
    · rw [distinct_concat_of_notMem (mt mem_distinct.1 hu)]
      simp [List.removeAll, hu, List.eraseDups_cons]

end TexSymbols.Text
