import TexSymbols.Program.Run
import TexSymbols.Proofs.Program.Load

/-!
# What a run prints

* `Command.Prints` — what a command prints or writes, and what that is made of.
* `Command.prints_of_gives` — a command that comes to an end without a failure prints just that.
* `Outcome.Whole` — a run has printed or written nothing, or all of it.
* `run_whole` — every run is like this whose command prints at its end.
-/

namespace TexSymbols

/-- The commands that print or write once, at their end. -/
def Command.printsAtEnd : Command → Bool
  | .compact .. | .table .. | .nomenc .. | .collect _ | .extract .. | .select .. => true
  | .parse .. | .deps .. => false

/-- The arguments that name definitions, if the command lists or renders a catalogue. -/
def Command.definitionFiles? : Command → Option (List Text)
  | .compact files _ | .table files _ _ | .nomenc files _ _ | .extract _ _ files
  | .select files _ => some files
  | .collect _ | .parse .. | .deps .. => none

section Prints

variable (env : Environment) (knownTags : List Text)

/-- What the commands print or write in the end, from all that they have read. -/
inductive Command.Prints : Command → Output → Prop
  | compact {files options c events} :
    Loaded env knownTags files c events →
    Prints (.compact files options) { stdout := TexSymbols.compact options c events }
  | table {files style order c events named} :
    TableStyle.ofName style = .ok named →
    Loaded env knownTags files c events →
    Prints (.table files style order) { stdout := named.render order c }
  | nomenc {files style only c events named used text} :
    only.map (fun path => (env.tree.readText? path).bind UsageMap.ofYaml?) = used.map some →
    NomenclatureStyle.ofName style = .ok named →
    Loaded env knownTags files c events →
    (Nomenclature.render named used c).2 = .ok text →
    Prints (.nomenc files style only) { stdout := text }
  | collect {files sources} :
    FileTexts env.tree files sources →
    Prints (.collect files) { stdout := (usesInAll sources).toYaml (sources.map Prod.fst) }
  | extract {document files c events text} :
    Loaded env knownTags files c events →
    env.tree.readText? document = some text →
    Prints (.extract document none files)
      { stdout := definitions (c.closure (usesIn document text).keys) }
  | extractTo {document path place files c events text} :
    Loaded env knownTags files c events →
    env.tree.readText? document = some text →
    env.tree.target? path = some place →
    Prints (.extract document (some path) files)
      { file := some (place, definitions (c.closure (usesIn document text).keys)) }
  | select {files selection c events text} :
    Loaded env knownTags files c events →
    selection.render c = .ok text →
    Prints (.select files selection) { stdout := text }

end Prints

namespace Environment

variable {env : Environment} {knownTags files : List Text} {out : Output}

theorem gives_compact {options : CompactOptions}
    (h : (env.compact knownTags files options).Gives out) :
    (Command.compact files options).Prints env knownTags out := by
  obtain ⟨⟨c, events⟩, hload, h⟩ := Stage.gives_bind h
  obtain rfl := Stage.gives_pure_iff.1 h
  exact .compact (loaded_of_gives hload)

theorem gives_table {style : Text} {order : Order}
    (h : (env.table knownTags files style order).Gives out) :
    (Command.table files style order).Prints env knownTags out := by
  obtain ⟨named, hstyle, h⟩ := Stage.gives_bind h
  obtain ⟨⟨c, events⟩, hload, h⟩ := Stage.gives_bind h
  obtain rfl := Stage.gives_pure_iff.1 h
  exact .table (Stage.gives_ofExcept_iff.1 hstyle) (loaded_of_gives hload)

theorem gives_usages {t : FileTree} {path : Path} {m : UsageMap} (h : (usages t path).Gives m) :
    (t.readText? path).bind UsageMap.ofYaml? = some m := by
  obtain ⟨text, htext, h⟩ := Stage.gives_bind h
  rw [FileTree.gives_text_iff] at htext
  rw [htext, Option.bind_some]
  cases hyaml : UsageMap.ofYaml? text with
  | none =>
    rw [hyaml] at h
    exact absurd h Stage.not_gives_throw
  | some m' =>
    rw [hyaml] at h
    exact congrArg some (Stage.gives_pure_iff.1 h)

theorem gives_nomenc {style : Text} {only : Option Path}
    (h : (env.nomenc knownTags files style only).Gives out) :
    (Command.nomenc files style only).Prints env knownTags out := by
  obtain ⟨used, hused, h⟩ := Stage.gives_bind h
  obtain ⟨named, hstyle, h⟩ := Stage.gives_bind h
  obtain ⟨⟨c, events⟩, hload, h⟩ := Stage.gives_bind h
  obtain ⟨_, -, h⟩ := Stage.gives_bind h
  obtain ⟨text, htext, h⟩ := Stage.gives_bind h
  obtain rfl := Stage.gives_pure_iff.1 h
  refine .nomenc ?_ (Stage.gives_ofExcept_iff.1 hstyle) (loaded_of_gives hload)
    (Stage.gives_ofExcept_iff.1 htext)
  cases only with
  | none =>
    obtain rfl := Stage.gives_pure_iff.1 hused
    rfl
  | some path =>
    obtain ⟨m, hm, hused⟩ := Stage.gives_bind hused
    obtain rfl := Stage.gives_pure_iff.1 hused
    exact congrArg some (gives_usages hm)

theorem gives_sourceTexts {t : FileTree} {paths : List Path} {sources : List (Text × Text)}
    (h : (sourceTexts t (.files paths)).Gives sources) :
    sources.map Prod.fst = paths ∧ ∀ s ∈ sources, t.readText? s.1 = some s.2 := by
  have hpairs := Stage.gives_mapM h
  clear h
  induction hpairs with
  | nil => simp
  | cons hhead _ ih =>
    obtain ⟨text, htext, hhead⟩ := Stage.gives_bind hhead
    obtain rfl := Stage.gives_pure_iff.1 hhead
    rw [FileTree.gives_text_iff] at htext
    exact ⟨congrArg _ ih.1, List.forall_mem_cons.2 ⟨htext, ih.2⟩⟩

theorem gives_collect (h : (env.collect files).Gives out) :
    (Command.collect files).Prints env knownTags out := by
  obtain ⟨paths, hpaths, h⟩ := Stage.gives_bind h
  obtain ⟨sources, hsources, h⟩ := Stage.gives_bind h
  obtain ⟨_, -, h⟩ := Stage.gives_bind h
  obtain rfl := Stage.gives_pure_iff.1 h
  obtain ⟨rfl, htexts⟩ := gives_sourceTexts hsources
  exact .collect ⟨FileTree.gives_inputPaths hpaths, htexts⟩

theorem gives_extract {document : Path} {output : Option Path}
    (h : (env.extract knownTags files document output).Gives out) :
    (Command.extract document output files).Prints env knownTags out := by
  obtain ⟨⟨c, events⟩, hload, h⟩ := Stage.gives_bind h
  obtain ⟨text, htext, h⟩ := Stage.gives_bind h
  obtain ⟨_, -, h⟩ := Stage.gives_bind h
  rw [FileTree.gives_text_iff] at htext
  cases output with
  | none =>
    obtain rfl := Stage.gives_pure_iff.1 h
    exact .extract (loaded_of_gives hload) htext
  | some path =>
    cases hplace : env.tree.target? path with
    | none =>
      simp only [hplace] at h
      exact absurd h Stage.not_gives_throw
    | some place =>
      simp only [hplace] at h
      obtain rfl := Stage.gives_pure_iff.1 h
      exact .extractTo (loaded_of_gives hload) htext hplace

theorem gives_select {selection : Selection}
    (h : (env.select knownTags files selection).Gives out) :
    (Command.select files selection).Prints env knownTags out := by
  obtain ⟨⟨c, events⟩, hload, h⟩ := Stage.gives_bind h
  obtain ⟨text, htext, h⟩ := Stage.gives_bind h
  obtain rfl := Stage.gives_pure_iff.1 h
  exact .select (loaded_of_gives hload) (Stage.gives_ofExcept_iff.1 htext)

end Environment

namespace Command

variable {env : Environment} {knownTags : List Text} {command : Command} {out : Output}

/-- **A command that comes to an end without a failure prints what it is to print.** -/
theorem prints_of_gives (hprints : command.printsAtEnd = true)
    (h : (command.perform env knownTags).Gives out) : command.Prints env knownTags out := by
  cases command with
  | parse files tokens => cases hprints
  | compact files options => exact Environment.gives_compact h
  | table files style order => exact Environment.gives_table h
  | nomenc files style only => exact Environment.gives_nomenc h
  | collect files => exact Environment.gives_collect h
  | extract document output files => exact Environment.gives_extract h
  | select files selection => exact Environment.gives_select h
  | deps roots kind direct => cases hprints

/-- A command that prints at its end has not failed. -/
theorem Prints.failure_eq_none (h : command.Prints env knownTags out) : out.failure = none := by
  cases h <;> rfl

/-- What is made of a catalogue is made of one that was loaded as a whole. -/
theorem Prints.loaded (h : command.Prints env knownTags out) :
    ∀ files ∈ command.definitionFiles?, ∃ c events, Loaded env knownTags files c events := by
  intro files hfiles
  cases h with
  | collect htexts => cases hfiles
  | compact hload => cases hfiles; exact ⟨_, _, hload⟩
  | table hstyle hload => cases hfiles; exact ⟨_, _, hload⟩
  | nomenc hused hstyle hload htext => cases hfiles; exact ⟨_, _, hload⟩
  | extract hload htext => cases hfiles; exact ⟨_, _, hload⟩
  | extractTo hload htext hplace => cases hfiles; exact ⟨_, _, hload⟩
  | select hload htext => cases hfiles; exact ⟨_, _, hload⟩

end Command

/-- The run has printed or written nothing, or all that its command is to print. -/
structure Outcome.Whole (env : Environment) (i : Invocation) (o : Outcome) : Prop where
  code_eq : o.code = 0 ∨ o.code = 1
  /-- A run that fails has printed nothing and written no file. -/
  of_failure : o.code = 1 → o.stdout = [] ∧ o.file = none
  of_success : o.code = 0 → ∃ out, i.command.Prints env (Tag.knownWith i.knownTags) out ∧
    o.stdout = out.stdout ∧ o.file = out.file
  /-- All definitions have been read without an error, and there are sections and symbols. -/
  loaded : o.code = 0 → ∀ files ∈ i.command.definitionFiles?,
    ∃ c events, Loaded env (Tag.knownWith i.knownTags) files c events

/-- A run has what its command gives, or the failure of it and nothing else. -/
theorem Invocation.run_eq (env : Environment) (i : Invocation) :
    ∃ log notes, i.run env =
      match (i.command.perform env (Tag.knownWith i.knownTags)).outcome.1 with
      | .error e => ⟨[], log, notes, some e, none⟩
      | .ok out => ⟨out.stdout, log, notes, out.failure, out.file⟩ :=
  ⟨_, _, rfl⟩

theorem Invocation.whole_run (env : Environment) {i : Invocation}
    (hprints : i.command.printsAtEnd = true) : (i.run env).Whole env i := by
  obtain ⟨log, notes, hrun⟩ := i.run_eq env
  rw [hrun]
  cases hresult : (i.command.perform env (Tag.knownWith i.knownTags)).outcome.1 with
  | error e => exact ⟨.inr rfl, fun _ => ⟨rfl, rfl⟩, nofun, nofun⟩
  | ok out =>
    have hout := Command.prints_of_gives hprints (Stage.gives_of_outcome hresult)
    have hcode : Outcome.code ⟨out.stdout, log, notes, out.failure, out.file⟩ = 0 := by
      rw [Outcome.code, hout.failure_eq_none]
      rfl
    refine ⟨.inl hcode, fun hone => ?_, fun _ => ⟨out, hout, rfl, rfl⟩, fun _ => hout.loaded⟩
    rw [hcode] at hone
    cases hone

/-- **A run prints nothing or all of it**: a failure leaves no partial output. -/
theorem run_whole {args : List Text} {i : Invocation} (hread : Invocation.read? args = some i)
    (hprints : i.command.printsAtEnd = true) (env : Environment) :
    ∃ o, run env args = some o ∧ o.Whole env i := by
  refine ⟨i.run env, ?_, Invocation.whole_run env hprints⟩
  rw [run, hread, Option.map_some]

/-- No files, and a definition on the standard input. -/
def definingInput : Environment :=
  ⟨.empty "/work", Utf8.encode "%:section:s : S\n\\newcommand\x7b\\a\x7d\x7bx\x7d\n"⟩

/-- The definitions on the standard input as one file. -/
def compaction : Invocation := ⟨"warn", [], .compact [] ⟨none, none, false⟩⟩

/-- Definitions on the standard input are written; without any the run fails. -/
theorem run_whole_compaction :
    Invocation.read? ["compact"] = some compaction ∧ compaction.command.printsAtEnd = true ∧
      (run definingInput ["compact"]).map Outcome.code = some 0 ∧
      (run ⟨.empty "/work", []⟩ ["compact"]).map Outcome.code = some 1 ∧
      ∃ o, run definingInput ["compact"] = some o ∧ o.Whole definingInput compaction := by
  have hread : Invocation.read? ["compact"] = some compaction := by rfl
  refine ⟨hread, rfl, ?_, ?_, run_whole hread rfl definingInput⟩
  · decide +kernel
  · decide +kernel

end TexSymbols
