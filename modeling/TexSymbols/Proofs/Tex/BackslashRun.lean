import Mathlib.Algebra.Ring.Parity
import Mathlib.Data.List.Sort
import TexSymbols.Proofs.Tex.Command
import TexSymbols.Proofs.Text.Distinct
import TexSymbols.Symbol

/-!
# Commands and runs of backslashes

* `BackslashRun`, `BackslashRun.Maximal` — backslashes that stand together in a text, all of them.
* `backslashRuns`, `mem_backslashRuns`, `pairwise_backslashRuns` — the maximal runs of a text, from
  the left to the right; no two of them touch.
* `BackslashRun.command?` — the command that the last backslash of a run starts.
* `commandBehind_iff_run` — where a command stands, an odd number of backslashes ends.
* `CommandRuns`, `commandsOfRuns` — the commands of a text are those of its runs, and the commands
  that a symbol uses are the same without later repetitions.
-/

namespace TexSymbols

variable {t before command : Text} {run next : BackslashRun}

/-- Backslashes that stand together, and the text before and behind them. -/
structure BackslashRun where
  before : Text
  count : Nat
  after : Text

namespace BackslashRun

/-- The run stands in the text, and no backslash stands next to it. -/
structure Maximal (run : BackslashRun) (t : Text) : Prop where
  text_eq : t = run.before ++ (List.replicate run.count '\\' ++ run.after)
  pos : 0 < run.count
  starts : run.before.getLast? ≠ some '\\'
  ends : run.after.head? ≠ some '\\'

/-- The last backslash of the run with the letters behind it, if it is unpaired and there are
some. -/
def command? (run : BackslashRun) : Option Text :=
  if Odd run.count ∧ run.after.takeWhile isLetter ≠ [] then
    some ('\\' :: run.after.takeWhile isLetter)
  else none

/-- The command behind what stands before its backslash. -/
def place? (run : BackslashRun) : Option (Text × Text) :=
  run.command?.map (run.before ++ List.replicate (run.count - 1) '\\', ·)

/-- The backslashes that follow a position of a text. -/
def behind (t : Text) (i : Nat) : BackslashRun :=
  ⟨t.take i, ((t.drop i).takeWhile (· = '\\')).length, (t.drop i).dropWhile (· = '\\')⟩

/-- The run that starts at a position of a text, if one does. -/
def at? (t : Text) (i : Nat) : Option BackslashRun :=
  if 0 < (behind t i).count ∧ (behind t i).before.getLast? ≠ some '\\' then some (behind t i)
  else none

end BackslashRun

/-- The maximal runs of backslashes in a text, from the left to the right. -/
def backslashRuns (t : Text) : List BackslashRun :=
  (List.range t.length).filterMap (BackslashRun.at? t)

/-! ## The runs of a text -/

theorem takeWhile_backslash (t : Text) :
    t.takeWhile (· = '\\') = List.replicate (t.takeWhile (· = '\\')).length '\\' :=
  List.eq_replicate_length.2 fun c hc => by simpa using List.mem_takeWhile_imp hc

namespace BackslashRun

theorem Maximal.endsRun (h : run.Maximal t) : EndsRun (· = '\\') run.after := by
  intro c hc
  have hne : c ≠ '\\' := by
    rintro rfl
    exact h.ends hc
  simpa using hne

/-- A text is made of what stands before a position, the backslashes there and the rest. -/
theorem behind_text (t : Text) (i : Nat) :
    (behind t i).before ++ (List.replicate (behind t i).count '\\' ++ (behind t i).after) = t := by
  simp only [behind]
  rw [← takeWhile_backslash, List.takeWhile_append_dropWhile, List.take_append_drop]

/-- What starts at a position is a maximal run. -/
theorem at?_eq_some_iff {i : Nat} :
    at? t i = some run ↔ run.Maximal t ∧ run.before.length = i := by
  constructor
  · intro h
    unfold at? at h
    split at h
    · rename_i hrun
      cases h
      obtain ⟨hpos, hstarts⟩ := hrun
      refine ⟨⟨(behind_text t i).symm, hpos, hstarts, ?_⟩, ?_⟩
      · intro hhead
        have hends := endsRun_dropWhile (t.drop i) '\\' hhead
        simp at hends
      · -- a run stands at the position, so that the text goes on there
        have hne : t.drop i ≠ [] := by
          intro hnil
          simp [behind, hnil] at hpos
        have hlt : i < t.length := by simpa using hne
        simp [behind, Nat.le_of_lt hlt]
    · cases h
  · rintro ⟨h, rfl⟩
    obtain ⟨before, count, after⟩ := run
    have hall : ∀ c ∈ List.replicate count '\\', decide (c = '\\') = true := by
      intro c hc
      simpa using List.eq_of_mem_replicate hc
    have htake : t.take before.length = before := by rw [h.text_eq, List.take_left]
    have hdrop : t.drop before.length = List.replicate count '\\' ++ after := by
      rw [h.text_eq, List.drop_left]
    have hbehind : behind t before.length = ⟨before, count, after⟩ := by
      rw [behind, htake, hdrop, takeWhile_run hall h.endsRun, dropWhile_run hall h.endsRun,
        List.length_replicate]
    rw [at?, hbehind]
    exact if_pos ⟨h.pos, h.starts⟩

/-- A run that starts further on starts behind a character that is no backslash. -/
theorem Maximal.lt_of_lt (h : run.Maximal t) (hnext : next.Maximal t)
    (hlt : run.before.length < next.before.length) :
    run.before.length + run.count < next.before.length := by
  have htext := h.text_eq
  rw [hnext.text_eq] at htext
  rcases List.append_eq_append_iff.1 htext with ⟨more, hmore, -⟩ | ⟨more, hmore, hrest⟩
  · have hlength := congrArg List.length hmore
    rw [List.length_append] at hlength
    omega
  · rw [hmore, List.length_append] at hlt ⊢
    rcases List.append_eq_append_iff.1 hrest with ⟨gap, hgap, hafter⟩ | ⟨gap, hgap, hafter⟩
    · -- the next run would start right behind this one
      have hne : gap ≠ [] := by
        rintro rfl
        rw [List.nil_append] at hafter
        refine h.ends ?_
        obtain ⟨n, hn⟩ := Nat.exists_eq_succ_of_ne_zero (Nat.ne_of_gt hnext.pos)
        rw [hafter, hn]
        rfl
      have hgap_pos := List.length_pos_iff.2 hne
      rw [hgap, List.length_append, List.length_replicate]
      omega
    · -- the next run would start inside of this one
      have hne : more ≠ [] := by
        rintro rfl
        simp at hlt
      have hlast : more.getLast hne = '\\' := by
        have hmem : more.getLast hne ∈ List.replicate run.count '\\' := by
          rw [hgap]
          exact List.mem_append_left gap (List.getLast_mem hne)
        exact List.eq_of_mem_replicate hmem
      refine absurd ?_ hnext.starts
      rw [hmore, List.getLast?_append, List.getLast?_eq_getLast_of_ne_nil hne, hlast]
      rfl

end BackslashRun

/-- **The runs are the maximal ones.** -/
theorem mem_backslashRuns : run ∈ backslashRuns t ↔ run.Maximal t := by
  unfold backslashRuns
  simp only [List.mem_filterMap, List.mem_range, BackslashRun.at?_eq_some_iff]
  constructor
  · rintro ⟨-, -, hmaximal, -⟩
    exact hmaximal
  · intro hmaximal
    refine ⟨_, ?_, hmaximal, rfl⟩
    have hlength := congrArg List.length hmaximal.text_eq
    rw [List.length_append, List.length_append, List.length_replicate] at hlength
    have hpos := hmaximal.pos
    omega

/-- **Runs come from the left to the right**, and something stands between two of them. -/
theorem pairwise_backslashRuns (t : Text) :
    (backslashRuns t).Pairwise fun a b => a.before.length + a.count < b.before.length := by
  refine List.pairwise_filterMap.2 (List.pairwise_lt_range.imp fun {i j} hlt a ha b hb => ?_)
  obtain ⟨hmaximal, rfl⟩ := BackslashRun.at?_eq_some_iff.1 ha
  obtain ⟨hnext, rfl⟩ := BackslashRun.at?_eq_some_iff.1 hb
  exact hmaximal.lt_of_lt hnext hlt

/-! ## The commands of the runs -/

namespace BackslashRun

/-- An unpaired backslash with all the letters behind it. -/
theorem command?_eq_some_iff :
    run.command? = some command ↔ Odd run.count ∧
      ∃ letters after, run.after = letters ++ after ∧ letters ≠ [] ∧
        (∀ c ∈ letters, isLetter c = true) ∧ EndsRun isLetter after ∧ command = '\\' :: letters := by
  unfold command?
  constructor
  · intro h
    split at h
    · rename_i hrun
      cases h
      exact ⟨hrun.1, _, _, List.takeWhile_append_dropWhile.symm, hrun.2,
        fun c hc => List.mem_takeWhile_imp hc, endsRun_dropWhile _, rfl⟩
    · cases h
  · rintro ⟨hodd, letters, after, hafter, hne, hletters, hends, rfl⟩
    rw [hafter, takeWhile_run hletters hends, if_pos ⟨hodd, hne⟩]

theorem command?_eq_none_of_even (h : Even run.count) : run.command? = none :=
  if_neg fun hrun => Nat.not_odd_iff_even.2 h hrun.1

theorem place?_eq_some_iff :
    run.place? = some (before, command) ↔
      run.command? = some command ∧ before = run.before ++ List.replicate (run.count - 1) '\\' := by
  unfold place?
  rw [Option.map_eq_some_iff]
  constructor
  · rintro ⟨_, hcommand, heq⟩
    obtain ⟨rfl, rfl⟩ := Prod.mk.inj heq
    exact ⟨hcommand, rfl⟩
  · rintro ⟨hcommand, rfl⟩
    exact ⟨_, hcommand, rfl⟩

end BackslashRun

/-- **A command stands exactly at the last backslash of a run of odd length** that letters
follow. -/
theorem commandBehind_iff_run :
    CommandBehind before command t ↔ ∃ run : BackslashRun, run.Maximal t ∧
      run.place? = some (before, command) := by
  constructor
  · rintro ⟨after, rfl, hcommand, hafter, heven⟩
    obtain ⟨c, letters, rfl, hc, hletters⟩ := hcommand.eq_cons
    obtain ⟨a, ha, hstarts⟩ := exists_endingBackslashes before
    refine ⟨⟨a, endingBackslashes before + 1, (c :: letters) ++ after⟩, ?_, ?_⟩
    · refine ⟨?_, Nat.zero_lt_succ _, hstarts, ?_⟩
      · calc before ++ ('\\' :: c :: letters ++ after)
            = a ++ List.replicate (endingBackslashes before) '\\' ++
                ('\\' :: c :: letters ++ after) := by rw [← ha]
          _ = a ++ (List.replicate (endingBackslashes before + 1) '\\' ++
                (c :: letters ++ after)) := by simp [List.replicate_succ']
      · intro hhead
        obtain rfl : c = '\\' := by simpa using hhead
        exact absurd hc (by decide)
    · refine BackslashRun.place?_eq_some_iff.2 ⟨?_, ha⟩
      exact BackslashRun.command?_eq_some_iff.2 ⟨heven.add_one, c :: letters, after, rfl,
        List.cons_ne_nil c letters, List.forall_mem_cons.2 ⟨hc, hletters⟩, hafter, rfl⟩
  · rintro ⟨run, hmaximal, hplace⟩
    obtain ⟨hcommand, rfl⟩ := BackslashRun.place?_eq_some_iff.1 hplace
    obtain ⟨hodd, letters, after, hafter, hne, hletters, hends, rfl⟩ :=
      BackslashRun.command?_eq_some_iff.1 hcommand
    obtain ⟨n, hn⟩ := Nat.exists_eq_succ_of_ne_zero (Nat.ne_of_gt hmaximal.pos)
    have heven : Even n := by
      rwa [hn, Nat.succ_eq_add_one, Nat.odd_add_one, Nat.not_odd_iff_even] at hodd
    refine ⟨after, ?_, ⟨letters, hne, hletters, rfl⟩, hends, ?_⟩
    · rw [hmaximal.text_eq, hafter, hn, Nat.succ_sub_one, List.replicate_succ']
      simp
    · rwa [hn, Nat.succ_sub_one, endingBackslashes_append_replicate hmaximal.starts]

/-- Places from the left to the right are determined by which they are. -/
theorem eq_of_mem_iff_of_pairwise {l l' : List (Text × Text)}
    (hl : l.Pairwise fun p q => p.1.length < q.1.length)
    (hl' : l'.Pairwise fun p q => p.1.length < q.1.length) (h : ∀ p, p ∈ l ↔ p ∈ l') : l = l' := by
  have hantisymm : Std.Antisymm fun p q : Text × Text => p.1.length < q.1.length :=
    ⟨fun _ _ hpq hqp => absurd hqp (Nat.lt_asymm hpq)⟩
  have hirrefl : Std.Irrefl fun p q : Text × Text => p.1.length < q.1.length :=
    ⟨fun _ => Nat.lt_irrefl _⟩
  exact hl.eq_of_mem_iff hl' h

theorem pairwise_places (t : Text) :
    ((backslashRuns t).filterMap BackslashRun.place?).Pairwise
      fun p q => p.1.length < q.1.length := by
  refine List.pairwise_filterMap.2 ((pairwise_backslashRuns t).imp fun {a b} hlt p hp q hq => ?_)
  obtain ⟨-, hp⟩ := BackslashRun.place?_eq_some_iff.1 hp
  obtain ⟨-, hq⟩ := BackslashRun.place?_eq_some_iff.1 hq
  rw [hp, hq, List.length_append, List.length_append, List.length_replicate]
  omega

/-- The places of the commands are those of the runs. -/
theorem commandPlaces_eq_filterMap (t : Text) :
    commandPlaces t = (backslashRuns t).filterMap BackslashRun.place? := by
  refine eq_of_mem_iff_of_pairwise (pairwise_commandPlaces t) (pairwise_places t) fun p => ?_
  rw [mem_commandPlaces_iff, commandBehind_iff_run, List.mem_filterMap]
  simp only [mem_backslashRuns]

theorem commands_eq_filterMap (t : Text) :
    commands t = (backslashRuns t).filterMap BackslashRun.command? := by
  rw [← map_snd_commandPlaces, commandPlaces_eq_filterMap, List.map_filterMap]
  refine List.filterMap_congr fun run _ => ?_
  unfold BackslashRun.place?
  cases run.command? <;> rfl

/-- The commands of a text, run by run. -/
structure CommandRuns (t : Text) : Prop where
  /-- The runs are all the maximal ones. -/
  mem_runs : ∀ run, run ∈ backslashRuns t ↔ run.Maximal t
  inOrder : (backslashRuns t).Pairwise fun a b => a.before.length + a.count < b.before.length
  commands_eq : commands t = (backslashRuns t).filterMap BackslashRun.command?
  /-- A run of odd length gives its last backslash with all the letters behind it, if there are
  some. -/
  command_iff : ∀ (run : BackslashRun) (command : Text), run.command? = some command ↔
    Odd run.count ∧ ∃ letters after, run.after = letters ++ after ∧ letters ≠ [] ∧
      (∀ c ∈ letters, isLetter c = true) ∧ EndsRun isLetter after ∧ command = '\\' :: letters
  /-- A run of even length gives nothing. -/
  none_of_even : ∀ run : BackslashRun, Even run.count → run.command? = none

/-- **The commands of a text are those of its runs of backslashes**, in order, and the commands that
a symbol uses are those of its body without later repetitions. -/
theorem commandsOfRuns :
    (∀ t, CommandRuns t) ∧ ∀ s : Symbol, s.references =
      ((backslashRuns s.body).filterMap BackslashRun.command?).eraseDups := by
  constructor
  · intro t
    exact
      { mem_runs := fun _ => mem_backslashRuns
        inOrder := pairwise_backslashRuns t
        commands_eq := commands_eq_filterMap t
        command_iff := fun _ _ => BackslashRun.command?_eq_some_iff
        none_of_even := fun _ => BackslashRun.command?_eq_none_of_even }
  · intro s
    rw [Symbol.references, distinctCommands, Text.distinct_eq_eraseDups, commands_eq_filterMap]

/-- Two backslashes start nothing, the third one does, and at the end of a line a backslash is
alone. -/
example : commands "a\\\\b \\\\\\c \\\n\\d" = ["\\c".toList, "\\d".toList] := by decide

end TexSymbols
