import Mathlib.Data.List.TakeWhile
import TexSymbols.Text

/-!
# Runs of characters

* `EndsRun` — a text that does not go on with a character of some kind.
* `takeWhile_run`, `dropWhile_run` — a run of such characters and what ends it are found again;
  `takeWhile_append_of_endsRun` — what ends a run is not part of it.
* `run_unique` — a text has only one such beginning.
-/

namespace TexSymbols

variable {p : Char → Bool} {a b a' b' : Text}

/-- A run of the characters that `p` accepts does not go on in the text. -/
def EndsRun (p : Char → Bool) (t : Text) : Prop := ∀ c ∈ t.head?, p c = false

@[simp] theorem endsRun_cons {c : Char} : EndsRun p (c :: b) ↔ p c = false := by simp [EndsRun]

theorem endsRun_dropWhile (t : Text) : EndsRun p (t.dropWhile p) := by
  intro c hc
  have hhead := List.head?_dropWhile_not p t
  rw [Option.mem_def.1 hc] at hhead
  simpa using hhead

theorem EndsRun.append (ha : EndsRun p a) (hb : EndsRun p b) : EndsRun p (a ++ b) := by
  cases a with
  | nil => exact hb
  | cons c a => exact ha

theorem takeWhile_run (ha : ∀ c ∈ a, p c = true) (hb : EndsRun p b) :
    (a ++ b).takeWhile p = a := by
  rw [List.takeWhile_append_of_pos ha]
  cases b with
  | nil => simp
  | cons c b => rw [List.takeWhile_cons_of_neg (by simp [endsRun_cons.1 hb]), List.append_nil]

/-- What does not go on with a run does not make it longer. -/
theorem takeWhile_append_of_endsRun (hb : EndsRun p b) (a : Text) :
    (a ++ b).takeWhile p = a.takeWhile p := by
  induction a with
  | nil =>
    cases b with
    | nil => rfl
    | cons c b => simp [endsRun_cons.1 hb]
  | cons c a ih => rw [List.cons_append, List.takeWhile_cons, List.takeWhile_cons, ih]

theorem dropWhile_run (ha : ∀ c ∈ a, p c = true) (hb : EndsRun p b) :
    (a ++ b).dropWhile p = b := by
  have hsplit := List.takeWhile_append_dropWhile (p := p) (l := a ++ b)
  rw [takeWhile_run ha hb] at hsplit
  exact List.append_cancel_left hsplit

/-- **A text begins with one run only.** -/
theorem run_unique (ha : ∀ c ∈ a, p c = true) (hb : EndsRun p b) (ha' : ∀ c ∈ a', p c = true)
    (hb' : EndsRun p b') (h : a ++ b = a' ++ b') : a = a' ∧ b = b' := by
  have hrun : a = a' := by rw [← takeWhile_run ha hb, h, takeWhile_run ha' hb']
  exact ⟨hrun, List.append_cancel_left (hrun ▸ h)⟩

end TexSymbols
