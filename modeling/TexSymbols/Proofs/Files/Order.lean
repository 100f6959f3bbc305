import Mathlib.Data.Prod.Lex
import TexSymbols.Files.Inputs
import TexSymbols.Proofs.Text.Order

/-!
# Input files in order

* `Path.key` — what orders a path; `Path.le_iff`, `Path.same_iff` — the order of paths is the one of
  their keys.
* `Path.inOrder_pairwise` — the paths that are left by `inOrder` are in order, each once;
  `mem_of_mem_inOrder`, `exists_same_of_mem` — they are the given ones.
* `InputFiles`, `inputFiles_of_inputs` — the files that arguments name.
-/

namespace TexSymbols

/-! ## Components -/

namespace Component

/-- The rank of a component, and the name if it is one. -/
def key : Component → ℕ ×ₗ Text
  | name n => toLex (3, n)
  | c => toLex (c.rank, [])

theorem key_injective : Function.Injective key := by
  intro a b h
  cases a <;> cases b <;> simp_all [key, rank]

theorem le_iff (a b : Component) : a.le b = true ↔ a.key ≤ b.key := by
  cases a <;> cases b <;> simp [le, key, rank, Prod.Lex.toLex_le_toLex, Text.le_iff]

theorem listLe_iff (as bs : List Component) :
    listLe as bs = true ↔ as.map key ≤ bs.map key := by
  induction as generalizing bs with
  | nil => simp [listLe, nil_le]
  | cons a as ih =>
    cases bs with
    | nil => simp [listLe]
    | cons b bs =>
      rw [listLe, List.map_cons, List.map_cons, cons_le_cons_iff]
      split
      · rename_i heq
        simp [heq, ih]
      · rename_i hne
        have hkey : a.key ≠ b.key := fun heq => hne (key_injective heq)
        simp [le_iff, hkey, le_iff_lt_or_eq]

end Component

namespace Path

/-- What orders a path. -/
def key (p : Path) : List (ℕ ×ₗ Text) := p.components.map Component.key

theorem le_iff (p q : Path) : p.le q = true ↔ p.key ≤ q.key := Component.listLe_iff _ _

theorem same_iff (p q : Path) : p.same q = true ↔ p.key = q.key := by
  rw [same, decide_eq_true_iff, key, key, Component.key_injective.list_map.eq_iff]

/-- `p` comes before `q`, and is not the same path. -/
def Before (p q : Path) : Prop := p.le q = true ∧ p.same q = false

theorem before_iff (p q : Path) : p.Before q ↔ p.key < q.key := by
  rw [Before, le_iff, ← Bool.not_eq_true, same_iff, lt_iff_le_and_ne]

theorem mergeSort_pairwise (ps : List Path) :
    (ps.mergeSort le).Pairwise fun p q => p.key ≤ q.key := by
  have hsorted : (ps.mergeSort le).Pairwise fun p q => p.le q = true := by
    refine List.pairwise_mergeSort (fun p q r hpq hqr => ?_) (fun p q => ?_) ps
    · rw [le_iff] at hpq hqr ⊢
      exact hpq.trans hqr
    · rw [Bool.or_eq_true, le_iff, le_iff]
      exact le_total p.key q.key
  exact hsorted.imp fun h => (le_iff _ _).1 h

theorem mergeSame_sublist (ps : List Path) : (mergeSame ps).Sublist ps := by
  fun_induction mergeSame ps with
  | case1 => exact .slnil
  | case2 p => exact .refl _
  | case3 p q ps _ ih => exact ih.trans (.cons_cons p (.cons q (.refl ps)))
  | case4 p q ps _ ih => exact .cons_cons p ih

/-- Among paths in order, those that are the same stand together. -/
theorem mergeSame_pairwise {ps : List Path} (h : ps.Pairwise fun p q => p.key ≤ q.key) :
    (mergeSame ps).Pairwise Before := by
  fun_induction mergeSame ps with
  | case1 => exact .nil
  | case2 p => exact List.pairwise_singleton _ _
  | case3 p q ps _ ih => exact ih (h.sublist (.cons_cons p (.cons q (.refl ps))))
  | case4 p q ps hsame ih =>
    obtain ⟨hp, hrest⟩ := List.pairwise_cons.1 h
    obtain ⟨hq, -⟩ := List.pairwise_cons.1 hrest
    have hne : p.key ≠ q.key := fun heq => hsame ((same_iff p q).2 heq)
    have hpq : p.key < q.key := lt_of_le_of_ne (hp q List.mem_cons_self) hne
    refine List.pairwise_cons.2 ⟨fun r hr => (before_iff p r).2 ?_, ih hrest⟩
    rcases List.mem_cons.1 ((mergeSame_sublist _).subset hr) with rfl | hr
    · exact hpq
    · exact hpq.trans_le (hq r hr)

theorem exists_same_of_mem_mergeSame {ps : List Path} {p : Path} (h : p ∈ ps) :
    ∃ q ∈ mergeSame ps, q.key = p.key := by
  fun_induction mergeSame ps generalizing p with
  | case1 => cases h
  | case2 q => exact ⟨p, h, rfl⟩
  | case3 q r ps hsame ih =>
    rcases List.mem_cons.1 h with rfl | h
    · exact ih List.mem_cons_self
    · rcases List.mem_cons.1 h with rfl | h
      · obtain ⟨s, hs, heq⟩ := ih (p := q) List.mem_cons_self
        exact ⟨s, hs, heq.trans ((same_iff q p).1 hsame)⟩
      · exact ih (List.mem_cons_of_mem _ h)
  | case4 q r ps _ ih =>
    rcases List.mem_cons.1 h with rfl | h
    · exact ⟨p, List.mem_cons_self, rfl⟩
    · obtain ⟨s, hs, heq⟩ := ih h
      exact ⟨s, List.mem_cons_of_mem _ hs, heq⟩

/-- **What is left is in order, each path once.** -/
theorem inOrder_pairwise (ps : List Path) : (inOrder ps).Pairwise Before :=
  mergeSame_pairwise (mergeSort_pairwise ps)

theorem mem_of_mem_inOrder {ps : List Path} {p : Path} (h : p ∈ inOrder ps) : p ∈ ps :=
  List.mem_mergeSort.1 ((mergeSame_sublist _).subset h)

/-- No path is lost, but for its spelling. -/
theorem exists_same_of_mem {ps : List Path} {p : Path} (h : p ∈ ps) :
    ∃ q ∈ inOrder ps, q.same p = true := by
  obtain ⟨q, hq, heq⟩ := exists_same_of_mem_mergeSame (List.mem_mergeSort.2 h)
  exact ⟨q, hq, (same_iff q p).2 heq⟩

end Path

/-! ## Input files -/

/-- The paths are the files that the arguments name. -/
structure InputFiles (t : FileTree) (args : List Text) (paths : List Path) : Prop where
  /-- Every argument is a file, a directory that may be read, or otherwise a pattern. -/
  accepted : ∀ arg ∈ args, (t.named arg).refusal? = none
  /-- They are in order, each once. -/
  ordered : paths.Pairwise Path.Before
  named : ∀ p ∈ paths, ∃ arg ∈ args, p ∈ (t.named arg).paths
  /-- No file that is named is left out, in some spelling. -/
  complete : ∀ arg ∈ args, ∀ p ∈ (t.named arg).paths, ∃ q ∈ paths, q.same p = true

/-- **The files of a run are those that the arguments name, in order.** -/
theorem inputFiles_of_inputs {t : FileTree} {args : List Text} {paths : List Path}
    (h : t.inputs args = .ok paths) : InputFiles t args paths := by
  unfold FileTree.inputs at h
  split at h
  · cases h
  · rename_i hnone
    obtain rfl := Except.ok.inj h
    refine ⟨List.findSome?_eq_none_iff.1 hnone, Path.inOrder_pairwise _, fun p hp => ?_,
      fun arg harg p hp => ?_⟩
    · exact List.mem_flatMap.1 (Path.mem_of_mem_inOrder hp)
    · exact Path.exists_same_of_mem (List.mem_flatMap.2 ⟨arg, harg, hp⟩)

end TexSymbols
