import TexSymbols.Proofs.Tex.Group

/-!
# The search for the end of a group

* `GroupSearch`, `step`, `run` — the search as a loop over the characters, with the number of open
  braces and a flag for an escape; to close a brace where none is open is an outcome of its own.
* `step_ne_underflow`, `depth_pos_of_step` — while a brace is open, a step that closes one closes
  that, and a step that goes on leaves one open; `run_ne_underflow` — the same for a whole search.
* `run_eq`, `search_eq` — the search finds the group that `braceGroup?` splits off.
* `GroupSplitting`, `groupSplitting` — groups are a balanced text in braces, and a text begins with
  one at most.
-/

namespace TexSymbols

/-- How many braces are open, and whether a backslash takes the next character with it. -/
structure GroupSearch where
  depth : Nat
  escaped : Bool

namespace GroupSearch

variable {s s' : GroupSearch} {c : Char}

/-- What a character does. -/
inductive Move
  | next (s : GroupSearch)
  /-- It closes the first brace. -/
  | close
  /-- It closes a brace although none is open. -/
  | underflow

/-- One character of the search. -/
def step (s : GroupSearch) (c : Char) : Move :=
  if s.escaped then .next { s with escaped := false }
  else if c = '\\' then .next { s with escaped := true }
  else if c = '{' then .next { s with depth := s.depth + 1 }
  else if c = '}' then
    match s.depth with
    | 0 => .underflow
    | 1 => .close
    | depth + 2 => .next { s with depth := depth + 1 }
  else .next s

/-- How a search ends. -/
inductive Outcome
  | closed (content rest : Text)
  | unclosed
  | underflow

/-- The search behind the text `read`, which begins with the first brace. -/
def run (s : GroupSearch) (read : Text) : Text → Outcome
  | [] => .unclosed
  | c :: r =>
    match s.step c with
    | .next s' => run s' (read ++ [c]) r
    | .close => .closed (read.drop 1) r
    | .underflow => .underflow

/-- The search in a text, which has to begin with an opening brace. -/
def search (t : Text) : Outcome := if t.head? = some '{' then run ⟨0, false⟩ [] t else .unclosed

/-! ## One character -/

@[simp] theorem step_escaped (depth : Nat) (c : Char) :
    step ⟨depth, true⟩ c = .next ⟨depth, false⟩ := rfl

@[simp] theorem step_backslash (depth : Nat) :
    step ⟨depth, false⟩ '\\' = .next ⟨depth, true⟩ := rfl

@[simp] theorem step_open (depth : Nat) : step ⟨depth, false⟩ '{' = .next ⟨depth + 1, false⟩ := rfl

@[simp] theorem step_close_one : step ⟨1, false⟩ '}' = .close := rfl

@[simp] theorem step_close (depth : Nat) :
    step ⟨depth + 2, false⟩ '}' = .next ⟨depth + 1, false⟩ := rfl

theorem step_plain (depth : Nat) (hescape : c ≠ '\\') (hopen : c ≠ '{') (hclose : c ≠ '}') :
    step ⟨depth, false⟩ c = .next ⟨depth, false⟩ := by
  simp [step, hescape, hopen, hclose]

/-- A step that goes on leaves a brace open. -/
theorem depth_pos_of_step (hpos : 0 < s.depth) (h : s.step c = .next s') : 0 < s'.depth := by
  obtain ⟨depth, escaped⟩ := s
  unfold step at h
  split at h
  · cases h
    exact hpos
  split at h
  · cases h
    exact hpos
  split at h
  · cases h
    exact Nat.zero_lt_succ depth
  split at h
  · split at h
    · cases h
    · cases h
    · cases h
      exact Nat.zero_lt_succ _
  · cases h
    exact hpos

/-- While a brace is open, none is closed that was not opened. -/
theorem step_ne_underflow (hpos : 0 < s.depth) (c : Char) : s.step c ≠ .underflow := by
  obtain ⟨depth, escaped⟩ := s
  intro h
  unfold step at h
  split at h
  · cases h
  split at h
  · cases h
  split at h
  · cases h
  split at h
  · split at h
    · rename_i hzero
      exact absurd hzero (Nat.ne_of_gt hpos)
    · cases h
    · cases h
  · cases h

/-! ## A whole search -/

/-- **The number of open braces is never taken below zero**, once one is open. -/
theorem run_ne_underflow (hpos : 0 < s.depth) (read t : Text) : s.run read t ≠ .underflow := by
  induction t generalizing s read with
  | nil => exact Outcome.noConfusion
  | cons c r ih =>
    rw [run]
    split
    · rename_i s' hstep
      exact ih (depth_pos_of_step hpos hstep) _
    · exact Outcome.noConfusion
    · rename_i hstep
      exact absurd hstep (step_ne_underflow hpos c)

theorem search_cons (r : Text) : search ('{' :: r) = run ⟨1, false⟩ ['{'] r := rfl

theorem search_ne_underflow (t : Text) : search t ≠ .underflow := by
  unfold search
  split
  · rename_i hhead
    obtain ⟨r, rfl⟩ := List.head?_eq_some_iff.1 hhead
    exact run_ne_underflow (s := ⟨1, false⟩) Nat.zero_lt_one ['{'] r
  · exact Outcome.noConfusion

/-- The outcome that a split gives. -/
def Outcome.ofSplit : Option (Text × Text) → Outcome
  | some (content, rest) => .closed content rest
  | none => .unclosed

/-- With `depth + 1` open braces, the search finds the end that `groupRest?` does. -/
theorem run_eq (depth : Nat) (read t : Text) :
    run ⟨depth + 1, false⟩ ('{' :: read) t =
      .ofSplit ((groupRest? depth t).map fun p => (read ++ p.1, p.2)) := by
  fun_induction groupRest? depth t generalizing read with
  | case1 depth c r ih =>
    have hrun := ih (read ++ ['\\', c])
    simpa [run, Function.comp_def] using hrun
  | case2 depth r ih =>
    have hrun := ih (read ++ ['{'])
    simpa [run, Function.comp_def] using hrun
  | case3 r => simp [run, Outcome.ofSplit]
  | case4 depth r ih =>
    have hrun := ih (read ++ ['}'])
    simpa [run, Function.comp_def] using hrun
  | case5 depth c r hescape hopen hclose hclose' ih =>
    by_cases hc : c = '\\'
    · subst hc
      -- the last character is a backslash that escapes nothing
      cases r with
      | nil => simp [run, groupRest?, Outcome.ofSplit]
      | cons d r => exact absurd rfl (hescape d r rfl)
    · have hbrace : c ≠ '}' := by
        rintro rfl
        cases depth with
        | zero => exact hclose rfl rfl
        | succ depth => exact hclose' depth rfl rfl
      have hrun := ih (read ++ [c])
      rw [run, step_plain _ hc hopen hbrace]
      simpa [Function.comp_def] using hrun
  | case6 => rfl

/-- **The search finds the group at the beginning of a text**, if there is one. -/
theorem search_eq (t : Text) : search t = .ofSplit (braceGroup? t) := by
  unfold braceGroup?
  split
  · rename_i r
    rw [search_cons, run_eq]
    simp
  · rename_i hhead
    rw [search, if_neg]
    · rfl
    · intro h
      obtain ⟨r, hr⟩ := List.head?_eq_some_iff.1 h
      exact hhead r hr

end GroupSearch

/-! ## Groups -/

/-- The text is a group with the given content, and what follows it. -/
def IsGroup (t content rest : Text) : Prop := t = '{' :: (content ++ '}' :: rest) ∧ Balanced content

/-- What splitting a group off a text gives. -/
structure GroupSplitting (t : Text) : Prop where
  eq_some_iff : ∀ content rest, braceGroup? t = some (content, rest) ↔ IsGroup t content rest
  unique : ∀ content rest content' rest', IsGroup t content rest → IsGroup t content' rest' →
    content = content' ∧ rest = rest'
  eq_none_iff : braceGroup? t = none ↔ ¬ ∃ content rest, IsGroup t content rest
  /-- Counting braces finds the same. -/
  search_eq : GroupSearch.search t = .ofSplit (braceGroup? t)
  /-- No brace is closed that was not opened. -/
  no_underflow : GroupSearch.search t ≠ .underflow

/-- **A group is split off exactly if the text begins with one**, and there is one split at most. -/
theorem groupSplitting (t : Text) : GroupSplitting t where
  eq_some_iff _ _ := braceGroup?_eq_some_iff
  unique content rest content' rest' h h' := by
    have hsplit := braceGroup?_eq_some_iff.2 h
    rw [braceGroup?_eq_some_iff.2 h'] at hsplit
    obtain ⟨rfl, rfl⟩ := Prod.mk.inj (Option.some.inj hsplit)
    exact ⟨rfl, rfl⟩
  eq_none_iff := by
    constructor
    · rintro hnone ⟨content, rest, hgroup⟩
      rw [braceGroup?_eq_some_iff.2 hgroup] at hnone
      cases hnone
    · intro hno
      refine Option.eq_none_iff_forall_ne_some.2 fun p hp => ?_
      exact hno ⟨p.1, p.2, braceGroup?_eq_some_iff.1 hp⟩
  search_eq := GroupSearch.search_eq t
  no_underflow := GroupSearch.search_ne_underflow t

end TexSymbols
