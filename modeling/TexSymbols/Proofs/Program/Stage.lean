import Mathlib.Data.List.Forall2
import TexSymbols.Program.Stage

/-!
# What a stage gives

* `Stage.Gives` — a stage comes to a result, whatever it logs on the way.
* `gives_bind`, `gives_pure_iff`, `not_gives_throw`, `gives_ofExcept_iff`, `gives_mapM` — results of
  stages that are made of others.
-/

namespace TexSymbols.Stage

variable {α β ε : Type}

/-- The stage comes to the result if it goes on from some log. -/
def Gives (s : Stage α) (a : α) : Prop := ∃ log, ((ExceptT.run s).run log).1 = .ok a

theorem gives_of_outcome {s : Stage α} {a : α} (h : s.outcome.1 = .ok a) : s.Gives a := ⟨[], h⟩

@[simp] theorem gives_pure_iff {a b : α} : (pure a : Stage α).Gives b ↔ a = b := by
  constructor
  · rintro ⟨log, h⟩
    exact Except.ok.inj h
  · rintro rfl
    exact ⟨[], rfl⟩

@[simp] theorem not_gives_throw {e : Failure} {a : α} : ¬ (throw e : Stage α).Gives a := by
  rintro ⟨log, h⟩
  cases h

/-- What a stage gives comes from what its first part gives. -/
theorem gives_bind {s : Stage α} {f : α → Stage β} {b : β} (h : (s >>= f).Gives b) :
    ∃ a, s.Gives a ∧ (f a).Gives b := by
  obtain ⟨log, h⟩ := h
  cases hs : (ExceptT.run s).run log with
  | mk result log' =>
    cases result with
    | error e =>
      have hrun : ((ExceptT.run (s >>= f)).run log).1 = .error e := by
        simp only [ExceptT.run_bind, StateT.run_bind, hs]
        rfl
      rw [hrun] at h
      cases h
    | ok a =>
      have hrun : ((ExceptT.run (s >>= f)).run log).1 = ((ExceptT.run (f a)).run log').1 := by
        simp only [ExceptT.run_bind, StateT.run_bind, hs]
        rfl
      exact ⟨a, ⟨log, by rw [hs]⟩, log', hrun ▸ h⟩

@[simp] theorem gives_ofExcept_iff {f : ε → Failure} {result : Except ε α} {a : α} :
    (ofExcept f result).Gives a ↔ result = .ok a := by
  cases result with
  | ok b => simp [ofExcept]
  | error e => simp [ofExcept]

/-- A list of results comes from one stage for each of them. -/
theorem gives_mapM {f : α → Stage β} {l : List α} {bs : List β} (h : (l.mapM f).Gives bs) :
    List.Forall₂ (fun a b => (f a).Gives b) l bs := by
  induction l generalizing bs with
  | nil =>
    rw [List.mapM_nil, gives_pure_iff] at h
    subst h
    exact .nil
  | cons a l ih =>
    rw [List.mapM_cons] at h
    obtain ⟨b, hb, h⟩ := gives_bind h
    obtain ⟨rest, hrest, h⟩ := gives_bind h
    rw [gives_pure_iff] at h
    subst h
    exact .cons hb (ih hrest)

end TexSymbols.Stage
