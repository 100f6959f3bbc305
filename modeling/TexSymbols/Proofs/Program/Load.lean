import TexSymbols.Program.Load
import TexSymbols.Proofs.Files.Order
import TexSymbols.Proofs.Program.Stage

/-!
# What was loaded

* `Catalogue.ReadsAll` — texts that are read into a catalogue one after the other, without an error.
* `FileTexts` — the files that arguments name, in order, with their texts.
* `Sources` — the texts that arguments stand for, files or the standard input.
* `Loaded`, `loaded_of_gives` — a catalogue that was loaded comes from all of them, and has a
  section and a symbol.
-/

namespace TexSymbols

/-- The texts, given by name and content, are read one after the other, each without an error. -/
inductive Catalogue.ReadsAll : Catalogue → List (Text × Text) → Catalogue → List Event → Prop
  | nil {c} : ReadsAll c [] c []
  | cons {c c' name text sources events} :
    (c.read name text none).error = none →
    ReadsAll (c.read name text none).reader.catalogue sources c' events →
    ReadsAll c ((name, text) :: sources) c' ((c.read name text none).events ++ events)

variable {t : FileTree} {args files paths : List Text} {c c' : Catalogue} {events : List Event}

theorem FileTree.gives_text_iff {path text : Text} :
    (t.text path).Gives text ↔ t.readText? path = some text := by
  unfold FileTree.text
  cases t.readText? path <;> simp

theorem Catalogue.gives_readAll {name text : Text} (h : (c.readAll name text).Gives (c', events)) :
    (c.read name text none).error = none ∧
      c' = (c.read name text none).reader.catalogue ∧ events = (c.read name text none).events := by
  obtain ⟨_, -, h⟩ := Stage.gives_bind h
  cases herror : (c.read name text none).error with
  | some e =>
    rw [herror] at h
    exact absurd h Stage.not_gives_throw
  | none =>
    rw [herror] at h
    obtain ⟨rfl, rfl⟩ := Prod.mk.inj (Stage.gives_pure_iff.1 h)
    exact ⟨rfl, rfl, rfl⟩

theorem Catalogue.ReadsAll.singleton {name text : Text}
    (h : (c.readAll name text).Gives (c', events)) : c.ReadsAll [(name, text)] c' events := by
  obtain ⟨herror, rfl, rfl⟩ := Catalogue.gives_readAll h
  simpa using ReadsAll.cons herror .nil

/-- Files that were read have texts, and these were read into the catalogue in the same order. -/
theorem Catalogue.gives_readFiles (h : (c.readFiles t paths).Gives (c', events)) :
    ∃ sources, sources.map Prod.fst = paths ∧ (∀ s ∈ sources, t.readText? s.1 = some s.2) ∧
      c.ReadsAll sources c' events := by
  induction paths generalizing c events with
  | nil =>
    obtain ⟨rfl, rfl⟩ := Prod.mk.inj (Stage.gives_pure_iff.1 h)
    exact ⟨[], rfl, by simp, .nil⟩
  | cons path paths ih =>
    obtain ⟨_, -, h⟩ := Stage.gives_bind h
    obtain ⟨text, htext, h⟩ := Stage.gives_bind h
    obtain ⟨⟨c₁, first⟩, hfirst, h⟩ := Stage.gives_bind h
    obtain ⟨⟨c₂, more⟩, hmore, h⟩ := Stage.gives_bind h
    obtain ⟨rfl, rfl⟩ := Prod.mk.inj (Stage.gives_pure_iff.1 h)
    obtain ⟨herror, rfl, rfl⟩ := Catalogue.gives_readAll hfirst
    obtain ⟨sources, rfl, hsources, hreads⟩ := ih hmore
    exact ⟨(path, text) :: sources, rfl,
      List.forall_mem_cons.2 ⟨FileTree.gives_text_iff.1 htext, hsources⟩, .cons herror hreads⟩

/-! ## Sources -/

/-- The texts are those of the files that the arguments name, in order. -/
structure FileTexts (t : FileTree) (args : List Text) (sources : List (Text × Text)) : Prop where
  files : InputFiles t args (sources.map Prod.fst)
  texts : ∀ s ∈ sources, t.readText? s.1 = some s.2

/-- The texts, given by name and content, that the arguments stand for. -/
inductive Sources (env : Environment) (args : List Text) : List (Text × Text) → Prop
  | stdin {text} : args = [] → Utf8.decode? env.stdin = some text →
    Sources env args [("stdin", text)]
  | files {sources} : args ≠ [] → sources ≠ [] → FileTexts env.tree args sources →
    Sources env args sources

theorem FileTree.gives_inputPaths (h : (t.inputPaths args).Gives paths) :
    InputFiles t args paths := by
  obtain ⟨_, -, h⟩ := Stage.gives_bind h
  exact inputFiles_of_inputs (Stage.gives_ofExcept_iff.1 h)

/-- The catalogue and the events are those of the texts that the arguments stand for. -/
structure Loaded (env : Environment) (knownTags args : List Text) (c : Catalogue)
    (events : List Event) : Prop where
  /-- All texts are read without an error, one after the other, and then the sections are linked. -/
  reads : ∃ sources c₀, Sources env args sources ∧
    (Catalogue.new knownTags).ReadsAll sources c₀ events ∧ c = c₀.link
  sections_pos : 0 < c.sections.size
  symbols_pos : 0 < c.symbols.size

/-- A source is the standard input or the files that the arguments name, at least one. -/
theorem Environment.gives_source {env : Environment} {source : Source}
    (h : (env.source args).Gives source) :
    (args = [] ∧ ∃ text, Utf8.decode? env.stdin = some text ∧ source = .text "stdin" text) ∨
      (args ≠ [] ∧ ∃ paths, paths ≠ [] ∧ InputFiles env.tree args paths ∧
        source = .files paths) := by
  unfold Environment.source at h
  split at h
  · rename_i hargs
    cases htext : Utf8.decode? env.stdin with
    | none =>
      rw [htext] at h
      exact absurd h Stage.not_gives_throw
    | some text =>
      rw [htext] at h
      obtain rfl := Stage.gives_pure_iff.1 h
      exact .inl ⟨List.isEmpty_iff.1 hargs, text, rfl, rfl⟩
  · rename_i hargs
    obtain ⟨paths, hpaths, h⟩ := Stage.gives_bind h
    split at h
    · obtain ⟨_, hthrow, -⟩ := Stage.gives_bind h
      exact absurd hthrow Stage.not_gives_throw
    · rename_i hne
      obtain rfl := Stage.gives_pure_iff.1 h
      exact .inr ⟨by simpa using hargs, paths, by simpa using hne,
        FileTree.gives_inputPaths hpaths, rfl⟩

/-- A source that was loaded was read as a whole, and its sections are linked. -/
theorem gives_load {env : Environment} {knownTags : List Text} {source : Source}
    (hsource : (env.source args).Gives source)
    (h : (load env.tree knownTags source).Gives (c, events)) :
    ∃ sources c₀, Sources env args sources ∧
      (Catalogue.new knownTags).ReadsAll sources c₀ events ∧ c = c₀.link := by
  obtain ⟨⟨c₀, read⟩, hread, h⟩ := Stage.gives_bind h
  obtain ⟨_, -, h⟩ := Stage.gives_bind h
  obtain ⟨rfl, rfl⟩ := Prod.mk.inj (Stage.gives_pure_iff.1 h)
  rcases Environment.gives_source hsource with
    ⟨hargs, text, htext, rfl⟩ | ⟨hargs, paths, hne, hpaths, rfl⟩
  · obtain ⟨_, -, hread⟩ := Stage.gives_bind hread
    exact ⟨_, c₀, .stdin hargs htext, .singleton hread, rfl⟩
  · obtain ⟨sources, rfl, htexts, hreads⟩ := Catalogue.gives_readFiles hread
    exact ⟨sources, c₀, .files hargs (by simpa using hne) ⟨hpaths, htexts⟩, hreads, rfl⟩

theorem Catalogue.size_pos_of_not_isEmpty (h : ¬ c.isEmpty = true) :
    0 < c.sections.size ∧ 0 < c.symbols.size := by
  simpa [Catalogue.isEmpty, OrderedMap.isEmpty, OrderedMap.size, List.length_pos_iff] using h

/-- **A catalogue that was loaded comes from all the texts that the arguments stand for.** -/
theorem loaded_of_gives {env : Environment} {knownTags : List Text}
    (h : (env.catalogue knownTags args).Gives (c, events)) :
    Loaded env knownTags args c events := by
  obtain ⟨source, hsource, h⟩ := Stage.gives_bind h
  obtain ⟨⟨c₁, read⟩, hload, h⟩ := Stage.gives_bind h
  dsimp only at h
  split at h
  · obtain ⟨_, hthrow, -⟩ := Stage.gives_bind h
    exact absurd hthrow Stage.not_gives_throw
  · rename_i hempty
    obtain ⟨rfl, rfl⟩ := Prod.mk.inj (Stage.gives_pure_iff.1 h)
    obtain ⟨hsections, hsymbols⟩ := Catalogue.size_pos_of_not_isEmpty hempty
    exact ⟨gives_load hsource hload, hsections, hsymbols⟩

end TexSymbols
