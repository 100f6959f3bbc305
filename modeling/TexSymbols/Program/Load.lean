import TexSymbols.Catalogue.Hierarchy
import TexSymbols.Catalogue.Reader
import TexSymbols.Program.Stage

/-!
# Loading definitions

* `Source` — files, or a text with a name.
* `Environment` — the files and the standard input of a run.
* `load` — a catalogue of all definitions of a source, linked, and the events of reading them.
* `Environment.source`, `Environment.catalogue` — the source that arguments name, and its definitions.
-/

namespace TexSymbols

/-- Where definitions are read from. -/
inductive Source
  | files (paths : List Path)
  | text (name content : Text)

/-- What a run can look at. -/
structure Environment where
  tree : FileTree
  stdin : Bytes

/-- The text of a file. -/
def FileTree.text (t : FileTree) (path : Path) : Stage Text :=
  match t.readText? path with
  | some text => pure text
  | none => throw (.unreadable path (t.fault path))

/-- Read a whole text into the catalogue. -/
def Catalogue.readAll (c : Catalogue) (name text : Text) : Stage (Catalogue × List Event) := do
  let r := c.read name text none
  Stage.report (r.reader.notices.map Notice.logLine)
  match r.error with
  | some e => throw (.reading e)
  | none => return (r.reader.catalogue, r.events)

/-- Read files into the catalogue, one after the other. -/
def Catalogue.readFiles (t : FileTree) (c : Catalogue) : List Path → Stage (Catalogue × List Event)
  | [] => return (c, [])
  | path :: paths => do
    Stage.report [⟨.debug, "parsing " ++ path⟩]
    let text ← t.text path
    let (c, events) ← c.readAll path text
    let (c, more) ← readFiles t c paths
    return (c, events ++ more)

/-- Read a source into the catalogue. -/
def Catalogue.readSource (t : FileTree) (c : Catalogue) : Source → Stage (Catalogue × List Event)
  | .files paths => c.readFiles t paths
  | .text name content => do
    Stage.report [⟨.debug, "parsing " ++ name⟩]
    c.readAll name content

/-- All definitions of a source, with the sections linked. -/
def load (t : FileTree) (knownTags : List Text) (source : Source) : Stage (Catalogue × List Event) := do
  let (c, events) ← (Catalogue.new knownTags).readSource t source
  let c := c.link
  Stage.report [⟨.info, "Loaded " ++ Decimal.digits c.sections.size ++ " sections with " ++
    Decimal.digits c.symbols.size ++ " symbols."⟩]
  return (c, events)

/-- The files that arguments name. -/
def FileTree.inputPaths (t : FileTree) (args : List Text) : Stage (List Path) := do
  Stage.report ((t.unmatched args).map fun arg => ⟨.warn, "no files matched: " ++ arg⟩)
  Stage.ofExcept Refusal.failure (t.inputs args)

namespace Environment

/-- The files that the arguments name, at least one; the standard input if there are no arguments. -/
def source (env : Environment) (args : List Text) : Stage Source :=
  if args.isEmpty then
    match Utf8.decode? env.stdin with
    | some text => return .text "stdin" text
    | none => throw .unreadableInput
  else do
    let paths ← env.tree.inputPaths args
    if paths.isEmpty then throw (.noInputs args)
    return .files paths

/-- The definitions that the arguments name, at least one section and one symbol. -/
def catalogue (env : Environment) (knownTags args : List Text) : Stage (Catalogue × List Event) := do
  let source ← env.source args
  let (c, events) ← load env.tree knownTags source
  if c.isEmpty then throw .noData
  return (c, events)

end Environment

end TexSymbols
