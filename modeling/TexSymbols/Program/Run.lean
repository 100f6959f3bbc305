import TexSymbols.Catalogue.Closure
import TexSymbols.Listing.Nomenclature
import TexSymbols.Listing.Table
import TexSymbols.Program.Arguments
import TexSymbols.Program.Inspect
import TexSymbols.Usage.Yaml

/-!
# Runs

* `Output` — what a command that does not fail has printed or written.
* `Command.perform` — a command as a stage.
* `run` — the outcome of a run with given arguments; none if they are refused.
-/

namespace TexSymbols

/-- What a command has done in the end. -/
structure Output where
  stdout : Text := []
  /-- The one file that is written. -/
  file : Option (Place × Text) := none
  /-- The failure that came after something had been printed. -/
  failure : Option Failure := none

namespace Environment

/-- Each text on a line of its own. -/
def linesText (lines : List Text) : Text := lines.flatMap fun l => l ++ "\n"

/-- The names and texts of a source. -/
def sourceTexts (t : FileTree) : Source → Stage (List (Text × Text))
  | .text name content => return [(name, content)]
  | .files paths => paths.mapM fun path => do return (path, ← t.text path)

/-- The events or tokens of files. -/
def parse (env : Environment) (knownTags files : List Text) (tokens : Bool) : Stage Output := do
  let sources ← sourceTexts env.tree (← env.source files)
  let shown := if tokens then inspectTokens sources else inspectEvents (.new knownTags) sources
  Stage.report (shown.notices.map Notice.logLine)
  return { stdout := linesText shown.lines, failure := shown.error.map .reading }

/-- All files as one. -/
def compact (env : Environment) (knownTags files : List Text) (options : CompactOptions) : Stage Output := do
  let (c, events) ← env.catalogue knownTags files
  return { stdout := TexSymbols.compact options c events }

/-- All symbols as a table. -/
def table (env : Environment) (knownTags files : List Text) (style : Text) (order : Order) : Stage Output := do
  let style ← Stage.ofExcept .listing (TableStyle.ofName style)
  let (c, _) ← env.catalogue knownTags files
  return { stdout := style.render order c }

/-- The usage map in a file. -/
def usages (t : FileTree) (path : Path) : Stage UsageMap := do
  match UsageMap.ofYaml? (← t.text path) with
  | some m => return m
  | none => throw (.invalidUsages path)

/-- The nomenclature, of all symbols or of those in a usage map. -/
def nomenc (env : Environment) (knownTags files : List Text) (style : Text) (only : Option Path) : Stage Output := do
  let used ← only.mapM (usages env.tree)
  let style ← Stage.ofExcept .listing (NomenclatureStyle.ofName style)
  let (c, _) ← env.catalogue knownTags files
  let (log, result) := Nomenclature.render style used c
  Stage.report log
  return { stdout := ← Stage.ofExcept .listing result }

/-- The uses of commands in documents. -/
def collect (env : Environment) (files : List Text) : Stage Output := do
  let paths ← env.tree.inputPaths files
  let documents ← sourceTexts env.tree (.files paths)
  let uses := usesInAll documents
  Stage.report [⟨.info, "Found " ++ Decimal.digits uses.size ++ " distinct commands"⟩]
  return { stdout := uses.toYaml paths }

/-- The definitions that a document needs, printed or written to a file. -/
def extract (env : Environment) (knownTags files : List Text) (document : Path) (output : Option Path) :
    Stage Output := do
  let (c, _) ← env.catalogue knownTags files
  let used := (usesIn document (← env.tree.text document)).keys
  let symbols := c.closure used
  Stage.report ([⟨.info, "I found " ++ Decimal.digits used.length ++ " commands"⟩] ++
    (c.explore used).map Visit.logLine ++ [⟨.info, "Extracted " ++ Decimal.digits symbols.length ++ " symbols"⟩])
  match output with
  | none => return { stdout := definitions symbols }
  | some path =>
    match env.tree.target? path with
    | none => throw (.unwritable path)
    | some place => return { file := some (place, definitions symbols) }

/-- The definitions of some sections. -/
def select (env : Environment) (knownTags files : List Text) (selection : Selection) : Stage Output := do
  let (c, _) ← env.catalogue knownTags files
  return { stdout := ← Stage.ofExcept .listing (selection.render c) }

/-- The rules of several roots up to the first error. -/
def rulesOf (t : FileTree) (kind : DocumentKind) (r : Resolver) :
    List Path → List Text × Option DependencyError × Resolver
  | [] => ([], none, r)
  | root :: roots =>
    match r.rules t kind root with
    | (.error e, r) => ([], some e, r)
    | (.ok lines, r) =>
      let (more, error, r) := rulesOf t kind r roots
      (lines ++ more, error, r)

/-- The documents that a run starts from if none are named. -/
def defaultRoots (t : FileTree) (kind : DocumentKind) : List Path :=
  (((Pattern.parse? kind.defaultPattern).map (·.find t)).getD []).mergeSort Path.le

/-- The makefile rules of documents, or the files that they name directly. -/
def deps (env : Environment) (roots : List Text) (kind : DocumentKind) (direct : Bool) : Stage Output := do
  let roots := if roots.isEmpty then defaultRoots env.tree kind else roots
  Stage.report [⟨.debug, "roots: " ++ Text.quotedList roots⟩]
  if direct then
    let named ← roots.mapM fun root => Stage.ofExcept .dependencies (env.tree.namedBy kind root)
    return { stdout := Text.join " " (Text.distinct named.flatten) ++ "\n" }
  else
    let (lines, error, r) := rulesOf env.tree kind .new roots
    Stage.report r.log
    return { stdout := linesText lines, failure := error.map .dependencies }

end Environment

/-- What a command does. -/
def Command.perform (env : Environment) (knownTags : List Text) : Command → Stage Output
  | .parse files tokens => env.parse knownTags files tokens
  | .compact files options => env.compact knownTags files options
  | .table files style order => env.table knownTags files style order
  | .nomenc files style only => env.nomenc knownTags files style only
  | .collect files => env.collect files
  | .extract document output files => env.extract knownTags files document output
  | .select files selection => env.select knownTags files selection
  | .deps roots kind direct => env.deps roots kind direct

/-- The outcome of a run. -/
structure Outcome where
  stdout : Text
  /-- The log lines that the chosen level lets through. -/
  log : List LogLine
  /-- The lines that were written before the first log line. -/
  notes : List Text
  failure : Option Failure
  file : Option (Place × Text)

/-- The exit code of a run. -/
def Outcome.code (o : Outcome) : Nat := if o.failure.isSome then 1 else 0

/-- The log level of a name; one that is not known stands for warnings, with a note. -/
def chosenLevel (name : Text) : Option Level × List Text :=
  match Level.ofName? name with
  | some level => (level, [])
  | none => (some .warn, Text.lines ("Invalid log level: " ++ name ++ ". Using 'warn' instead."))

/-- The outcome of an invocation. -/
def Invocation.run (env : Environment) (i : Invocation) : Outcome :=
  let (level, notes) := chosenLevel i.logLevel
  let (result, log) := (i.command.perform env (Tag.knownWith i.knownTags)).outcome
  let log := visibleAt level log
  match result with
  | .error e => ⟨[], log, notes, some e, none⟩
  | .ok output => ⟨output.stdout, log, notes, output.failure, output.file⟩

/-- The outcome of a run with the given arguments; none if they are refused. -/
def run (env : Environment) (args : List Text) : Option Outcome := (Invocation.read? args).map (·.run env)

end TexSymbols
