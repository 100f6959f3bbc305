import Mathlib.Data.List.Forall2

/-!
# Results of a list

What is known of the results of the elements of a list, when they were taken one after the other up
to the first error.

* `mapM_eq_pure` — elements that all have a result.
* `forall₂_of_mapM_eq_ok`, `exists_of_mapM_eq_ok` — the results are those of the elements.
* `exists_mem_of_mapM_eq_error` — an error is that of an element.
* `failsOr` — a result given by its error, if there is one, and its value; `mapM_eq_failsOr` — of
  such results the first error is the error of all.
-/

namespace TexSymbols

/-- Steps that give pure results. -/
theorem mapM_eq_pure {m : Type → Type} [Monad m] [LawfulMonad m] {β γ : Type} {xs : List β}
    {f : β → m γ} {g : β → γ} (h : ∀ x ∈ xs, f x = pure (g x)) : xs.mapM f = pure (xs.map g) := by
  induction xs with
  | nil => rw [List.mapM_nil, List.map_nil]
  | cons x xs ih =>
    rw [List.forall_mem_cons] at h
    rw [List.mapM_cons, h.1, ih h.2]
    simp

variable {α β ε : Type} {f : α → Except ε β} {xs : List α} {ys : List β}

theorem forall₂_of_mapM_eq_ok (h : xs.mapM f = .ok ys) :
    List.Forall₂ (fun x y => f x = .ok y) xs ys := by
  induction xs generalizing ys with
  | nil =>
    cases h
    exact .nil
  | cons x xs ih =>
    rw [List.mapM_cons] at h
    cases hx : f x with
    | error e => rw [hx] at h; cases h
    | ok y =>
      cases hxs : xs.mapM f with
      | error e => rw [hx, hxs] at h; cases h
      | ok ys' =>
        rw [hx, hxs] at h
        cases h
        exact .cons hx (ih hxs)

/-- **The results are those of the elements.** -/
theorem exists_of_mapM_eq_ok [Inhabited β] (h : xs.mapM f = .ok ys) :
    ∃ g : α → β, (∀ x ∈ xs, f x = .ok (g x)) ∧ ys = xs.map g := by
  have hpairs := forall₂_of_mapM_eq_ok h
  have hresult : ∀ x y, f x = .ok y → (f x).toOption.getD default = y := by
    intro x y hxy
    rw [hxy]
    rfl
  refine ⟨fun x => (f x).toOption.getD default, ?_⟩
  clear h
  induction hpairs with
  | nil => exact ⟨by simp, rfl⟩
  | @cons x y xs ys hxy _ ih =>
    refine ⟨List.forall_mem_cons.2 ⟨?_, ih.1⟩, ?_⟩
    · exact hxy.trans (congrArg Except.ok (hresult x y hxy).symm)
    · rw [List.map_cons, hresult x y hxy, ← ih.2]

/-- **An error is that of an element.** -/
theorem exists_mem_of_mapM_eq_error {e : ε} (h : xs.mapM f = .error e) :
    ∃ x ∈ xs, f x = .error e := by
  induction xs with
  | nil => cases h
  | cons x xs ih =>
    rw [List.mapM_cons] at h
    cases hx : f x with
    | error e' =>
      rw [hx] at h
      cases h
      exact ⟨x, List.mem_cons_self, hx⟩
    | ok y =>
      cases hxs : xs.mapM f with
      | error e' =>
        rw [hx, hxs] at h
        cases h
        obtain ⟨x', hx', he⟩ := ih hxs
        exact ⟨x', List.mem_cons_of_mem x hx', he⟩
      | ok ys =>
        rw [hx, hxs] at h
        cases h

/-! ## Results by error and value -/

/-- The error, if there is one, and the value otherwise. -/
def failsOr (error? : Option ε) (y : β) : Except ε β :=
  match error? with
  | some e => .error e
  | none => .ok y

section FailsOr

variable {γ : Type} {error? : Option ε} {y : β}

theorem failsOr_eq_error_iff {e : ε} : failsOr error? y = .error e ↔ error? = some e := by
  cases error? <;> simp [failsOr]

theorem failsOr_eq_ok_iff {y' : β} : failsOr error? y = .ok y' ↔ error? = none ∧ y = y' := by
  cases error? <;> simp [failsOr]

theorem map_failsOr (g : β → γ) : (failsOr error? y).map g = failsOr error? (g y) := by
  cases error? <;> rfl

theorem bind_failsOr (g : β → γ) :
    (failsOr error? y >>= fun x => pure (g x)) = failsOr error? (g y) := by
  cases error? <;> rfl

end FailsOr

/-- What is found first in several lists. -/
theorem findSome?_flatMap {γ δ : Type} (f : γ → List α) (g : α → Option δ) (xs : List γ) :
    (xs.flatMap f).findSome? g = xs.findSome? fun x => (f x).findSome? g := by
  induction xs with
  | nil => rfl
  | cons x xs ih =>
    rw [List.flatMap_cons, List.findSome?_append, ih, List.findSome?_cons]
    cases (f x).findSome? g <;> rfl

/-- **The first error is the error of all.** -/
theorem mapM_eq_failsOr {error? : α → Option ε} {g : α → β}
    (h : ∀ x ∈ xs, f x = failsOr (error? x) (g x)) :
    xs.mapM f = failsOr (xs.findSome? error?) (xs.map g) := by
  induction xs with
  | nil => rfl
  | cons x xs ih =>
    rw [List.forall_mem_cons] at h
    rw [List.mapM_cons, h.1, ih h.2, List.findSome?_cons]
    cases error? x with
    | some e => rfl
    | none => cases xs.findSome? error? <;> rfl

end TexSymbols
