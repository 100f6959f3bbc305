import TexSymbols.Dependencies
import TexSymbols.Listing.Compact
import TexSymbols.Listing.Order
import TexSymbols.Listing.Selection

/-!
# Command-line arguments

* `Command` — what a run is to do; `Invocation` — a command with the options that all commands share.
* `OptionSpec` — an option that can be given; `OptionSpec.classify` tells what an argument is.
* `Given` — the options and words that arguments are read as.
* `CommandName` — the commands by name, with the options that each of them has.
* `Invocation.read?` — the invocation that arguments stand for; none if they are refused.
-/

namespace TexSymbols

/-- What a run is to do, and with which definition files. -/
inductive Command
  /-- Show what the files are read as, as events or as tokens. -/
  | parse (files : List Text) (tokens : Bool)
  /-- Write all files as one. -/
  | compact (files : List Text) (options : CompactOptions)
  /-- List all symbols. -/
  | table (files : List Text) (style : Text) (order : Order)
  /-- List the symbols by section, with their first uses; `only` names a usage map. -/
  | nomenc (files : List Text) (style : Text) (only : Option Path)
  /-- Find the uses of commands in documents. -/
  | collect (files : List Text)
  /-- Write the definitions that a document needs. -/
  | extract (document : Path) (output : Option Path) (files : List Text)
  /-- Write the definitions of some sections. -/
  | select (files : List Text) (selection : Selection)
  /-- Show the files that documents depend on, as makefile rules or those named directly on one line. -/
  | deps (roots : List Text) (kind : DocumentKind) (direct : Bool)

/-- Whether a command reads its definitions from the standard input. -/
def Command.readsInput : Command → Bool
  | parse files _ => files.isEmpty
  | compact files _ => files.isEmpty
  | table files _ _ => files.isEmpty
  | nomenc files _ _ => files.isEmpty
  | collect _ => false
  | extract _ _ files => files.isEmpty
  | select files _ => files.isEmpty
  | deps _ _ _ => false

/-- A command and the options that all commands share. -/
structure Invocation where
  logLevel : Text
  knownTags : List Text
  command : Command

/-- What is given with an option. -/
inductive OptionArity
  | flag
  | value
  /-- A value that is not empty. -/
  | path
  /-- A value; the option can be given again. -/
  | values
deriving DecidableEq

/-- An option that can be given as `--name`, perhaps also as a dash and one letter. -/
structure OptionSpec where
  name : Text
  arity : OptionArity
  letter : Option Char := none
deriving DecidableEq

/-- What an argument is. -/
inductive ArgumentKind
  | word
  /-- All arguments after this one are words. -/
  | separator
  /-- An option with its value; a flag has an empty one. -/
  | option (spec : OptionSpec) (value : Text)
  /-- An option whose value is the next argument. -/
  | pending (spec : OptionSpec)
  | refused

/-- What an argument is if the given options are known. -/
def OptionSpec.classify (specs : List OptionSpec) (arg : Text) : ArgumentKind :=
  match arg with
  | '-' :: '-' :: [] => .separator
  | '-' :: '-' :: body =>
    let (name, value) := match Text.splitOnce '=' body with
      | some (name, value) => (name, some value)
      | none => (body, none)
    match specs.find? (·.name = name), value with
    | none, _ => .refused
    | some spec, none => if spec.arity = .flag then .option spec [] else .pending spec
    | some spec, some value => if spec.arity = .flag then .refused else .option spec value
  | '-' :: letter :: value =>
    match specs.find? (·.letter = some letter), value with
    | none, _ => .refused
    | some spec, [] => .pending spec
    | some spec, '=' :: value => .option spec value
    | some spec, value => .option spec value
  | _ => .word

/-- Whether an argument can be the value of the option before it. -/
def isValue : Text → Bool
  | '-' :: _ :: _ => false
  | _ => true

/-- Options with their values, and words. -/
structure Given where
  options : List (OptionSpec × Text)
  words : List Text

namespace Given

def addOption (g : Given) (spec : OptionSpec) (value : Text) : Given :=
  { g with options := (spec, value) :: g.options }

/-- Reads arguments as options and words. -/
def read? (specs : List OptionSpec) : List Text → Option Given
  | [] => some ⟨[], []⟩
  | arg :: rest =>
    match OptionSpec.classify specs arg with
    | .word => (read? specs rest).map fun g => { g with words := arg :: g.words }
    | .separator => some ⟨[], rest⟩
    | .option spec value => (read? specs rest).map (·.addOption spec value)
    | .pending spec =>
      match rest with
      | [] => none
      | value :: rest => if isValue value then (read? specs rest).map (·.addOption spec value) else none
    | .refused => none

/-- Reads options up to the first word; gives that word and what follows it. -/
def readToWord? (specs : List OptionSpec) : List Text → Option (Given × Text × List Text)
  | [] => none
  | arg :: rest =>
    match OptionSpec.classify specs arg with
    | .word => some (⟨[], []⟩, arg, rest)
    | .separator => none
    | .option spec value => (readToWord? specs rest).map fun r => (r.1.addOption spec value, r.2)
    | .pending spec =>
      match rest with
      | [] => none
      | value :: rest =>
        if isValue value then (readToWord? specs rest).map fun r => (r.1.addOption spec value, r.2) else none
    | .refused => none

/-- The values given for an option. -/
def values (g : Given) (name : Text) : List Text := (g.options.filter (·.1.name = name)).map Prod.snd

def value? (g : Given) (name : Text) : Option Text := (g.values name).head?

def has (g : Given) (name : Text) : Bool := (g.value? name).isSome

/-- Whether each option is given as often as it may be, and no path is empty. -/
def isValid (g : Given) : Bool :=
  g.options.all fun o =>
    (o.1.arity = .values || (g.values o.1.name).length = 1) && !(o.1.arity = .path && o.2.isEmpty)

end Given

/-- The commands by their names. -/
inductive CommandName
  | parse
  | compact
  | table
  | nomenc
  | collect
  | extract
  | select
  | deps
deriving DecidableEq

namespace CommandName

def text : CommandName → Text
  | parse => "parse"
  | compact => "compact"
  | table => "table"
  | nomenc => "nomenc"
  | collect => "collect"
  | extract => "extract"
  | select => "select"
  | deps => "deps"

def all : List CommandName := [parse, compact, table, nomenc, collect, extract, select, deps]

def ofText? (t : Text) : Option CommandName := all.find? fun name => name.text = t

/-- The options that a command has besides the shared ones. -/
def specs : CommandName → List OptionSpec
  | parse => [⟨"tokens", .flag, none⟩]
  | compact => [⟨"select", .value, none⟩, ⟨"color", .value, none⟩, ⟨"markfirst", .flag, none⟩]
  | table =>
    [⟨"style", .value, none⟩, ⟨"sort-sections-alpha", .flag, none⟩, ⟨"sort-symbols-alpha", .flag, none⟩]
  | nomenc => [⟨"style", .value, none⟩, ⟨"only", .path, none⟩]
  | collect => []
  | extract => [⟨"main", .path, some 'm'⟩, ⟨"output", .path, some 'o'⟩]
  | select =>
    [⟨"include", .value, none⟩, ⟨"red", .value, none⟩, ⟨"green", .value, none⟩, ⟨"blue", .value, none⟩]
  | deps => [⟨"lyx", .flag, none⟩, ⟨"direct", .flag, none⟩]

/-- The command with what is given for it; none if something necessary is missing. -/
def command? (name : CommandName) (g : Given) : Option Command :=
  let valueD (name : String) (default : Text) : Text := (g.value? name).getD default
  match name with
  | parse => some (.parse g.words (g.has "tokens"))
  | compact => some (.compact g.words ⟨g.value? "select", g.value? "color", g.has "markfirst"⟩)
  | table => some (.table g.words (valueD "style" "full") ⟨g.has "sort-sections-alpha", g.has "sort-symbols-alpha"⟩)
  | nomenc => some (.nomenc g.words (valueD "style" "table") (g.value? "only"))
  | collect => if g.words.isEmpty then none else some (.collect g.words)
  | extract => (g.value? "main").map fun document => .extract document (g.value? "output") g.words
  | select =>
    some (.select g.words ⟨valueD "include" everySection, valueD "red" [], valueD "green" [], valueD "blue" []⟩)
  | deps => some (.deps g.words (if g.has "lyx" then .lyx else .tex) (g.has "direct"))

end CommandName

namespace Invocation

/-- The options that all commands share; they can stand before the command or among its own. -/
def sharedSpecs : List OptionSpec := [⟨"log-level", .value, none⟩, ⟨"known-tag", .values, none⟩]

/-- The invocation that arguments stand for.  A shared option among those of the command replaces the same one before
the command. -/
def read? (args : List Text) : Option Invocation := do
  let (before, word, rest) ← Given.readToWord? sharedSpecs args
  let name ← CommandName.ofText? word
  let given ← Given.read? (name.specs ++ sharedSpecs) rest
  if !(before.isValid && given.isValid) then none
  let command ← name.command? given
  let logLevel := ((given.value? "log-level").or (before.value? "log-level")).getD "warn"
  let knownTags := if given.has "known-tag" then given.values "known-tag" else before.values "known-tag"
  return ⟨logLevel, knownTags, command⟩

end Invocation

end TexSymbols
