import TexSymbols.Catalogue.Hierarchy
import TexSymbols.Listing.Error
import TexSymbols.Log
import TexSymbols.Tex.LongTable
import TexSymbols.Tex.Style
import TexSymbols.Usage

/-!
# The nomenclature

* `NomenclatureStyle` — a table grouped by section, or one `\nomenclature` entry per symbol.
* `Nomenclature.table` — the table: every symbol that has an entry or no arguments and is not excluded.
* `Nomenclature.entries` — the entries of the symbols in use.
* `Symbol.reference` — the cross-reference of a symbol, which has to carry a prefix.

With a usage map, symbols that are not used are marked in the table and left out of the entries.
-/

namespace TexSymbols

/-- The form of a nomenclature. -/
inductive NomenclatureStyle
  | table
  | entries
deriving DecidableEq

namespace NomenclatureStyle

/-- Names of the styles. -/
def names : List Text := ["table", "entries"]

def ofName (name : Text) : Except ListingError NomenclatureStyle :=
  if name = ("table" : Text) then .ok table
  else if name = ("entries" : Text) then .ok entries
  else .error (.unknownStyle name names)

end NomenclatureStyle

namespace Symbol

/-- The cross-reference of a symbol, empty if there is none; one without a colon is refused. -/
def reference (s : Symbol) : Except ListingError Text :=
  let target := (s.attributes.find? Tag.reference).getD []
  if target = [] ∨ ':' ∈ target then .ok target else .error (.unprefixedReference s.command target)

/-- Label and explanation: those of the nomenclature entry, or the command itself and its description.  A symbol with
arguments and without entry has none. -/
def labelAndText? (s : Symbol) : Option (Text × Text) :=
  match s.nomenclature with
  | some e => some (Tex.math e.label, e.text)
  | none => if s.nargs = 0 then some (Tex.math s.command, s.comment) else none

end Symbol

namespace Nomenclature

open LongTable (Row)

/-- Whether a command counts as used: always if there is no usage map. -/
def isUsed (usages : Option UsageMap) (command : Text) : Bool :=
  match usages with
  | none => true
  | some m => m.contains command

/-- What there is to log about the commands that are only defined, and those that are only used. -/
def usageLog (c : Catalogue) : Option UsageMap → List LogLine
  | none => []
  | some m =>
    [⟨.debug, "have but not used: " ++ Text.quotedList (c.symbols.keys.filter fun k => !m.contains k)⟩,
      ⟨.debug, "used but not have: " ++ Text.quotedList (m.keys.filter fun k => !c.symbols.contains k)⟩]

/-- The label of the first use that has one. -/
def firstUse? (usages : Option UsageMap) (command : Text) : Option Text :=
  ((usages.bind fun m => m.find? command).map firstLabelled).join

/-! ## The table -/

/-- Symbols that may stand in the table. -/
def isListed (s : Symbol) : Bool := !s.hasAttribute Tag.excluded && (s.nomenclature.isSome || s.nargs == 0)

/-- A command applied to an argument; nothing if the argument is empty. -/
def unlessEmpty (write : Text → Text) (t : Text) : Text := if t = [] then [] else write t

/-- The row of a symbol. -/
def symbolRow (usages : Option UsageMap) (s : Symbol) (label text : Text) : Except ListingError Row := do
  let target ← s.reference
  return .cells
    [label,
      if isUsed usages s.command then text else "\\unused " ++ text,
      unlessEmpty (fun t => "$\\to$" ++ Tex.applied "\\cref" t) target,
      unlessEmpty (Tex.applied "\\pageref") target,
      ((firstUse? usages s.command).map (Tex.applied "\\cref")).getD []]

/-- The rows of a symbol: one, if it has a label. -/
def symbolRows (usages : Option UsageMap) (s : Symbol) : Except ListingError (List Row) :=
  match s.labelAndText? with
  | some (label, text) => do return [← symbolRow usages s label text]
  | none => .ok []

/-- The heading of a section. -/
def heading (s : Section) : List Row :=
  let title : Text := if s.description = [] then "-" else s.description
  if s.isTopLevel then [.spanning [] 4 "l" (Tex.applied "\\nomencsectionname" title), .rule]
  else [.spanning [] 4 "c" (Tex.applied "\\nomencsubsectionname" title)]

/-- The rows of a section: none if it has neither listed symbols nor sections below it. -/
def sectionRows (usages : Option UsageMap) (c : Catalogue) (s : Section) : Except ListingError (List Row) := do
  let listed := (c.symbolsOf s).filter isListed
  if listed = [] ∧ s.subs = [] then return []
  let rows ← listed.mapM (symbolRows usages)
  return heading s ++ rows.flatten

/-- The table, sections with their parents first. -/
def table (usages : Option UsageMap) (c : Catalogue) : Except ListingError LongTable := do
  let rows ← c.sectionsParentFirst.mapM (sectionRows usages c)
  return ⟨["l", "p\x7b6cm\x7d", "l", "r", "l"],
    .cells ["symbol", "meaning", "defined in", "first use"] :: rows.flatten⟩

/-! ## The entries -/

/-- A text of the output that may also have log lines, and may fail after them. -/
abbrev Logged := List LogLine × Except ListingError Text

/-- Texts one after the other, up to the first failure. -/
def concat : List Logged → Logged
  | [] => ([], .ok [])
  | (log, .error e) :: _ => (log, .error e)
  | (log, .ok text) :: rest =>
    let (restLog, restText) := concat rest
    (log ++ restLog, restText.map (text ++ ·))

/-- A comment line. -/
def note (message : Text) : Text := "% " ++ message ++ "\n"

/-- Whether a period is missing at the end of an explanation. -/
def lacksPeriod (text : Text) : Bool := !text.isEmpty && text.getLast? != some '.'

/-- The group of a section and the sort key, if there is one. -/
def sortOptions (sectionName : Text) (s : Symbol) : Text :=
  let group : Text := "symbols-" ++ sectionName.map fun c => if c = '/' then '-' else c
  match s.attributes.find? Tag.sortKey with
  | some key => "[" ++ group ++ "," ++ key ++ "]"
  | none => "[" ++ group ++ "]"

/-- The entry of a symbol with the given label and explanation. -/
def entry (sectionName : Text) (s : Symbol) (label text : Text) : Logged :=
  let text := Text.trim text
  let periodLog : List LogLine :=
    if lacksPeriod text then [⟨.info, "Adding period to " ++ Text.quoted label ++ "/" ++ Text.quoted text⟩] else []
  let text := if lacksPeriod text then text ++ "." else text
  match s.reference with
  | .error e => (periodLog, .error e)
  | .ok target =>
    let text := text ++ unlessEmpty (fun t => " " ++ Tex.applied "\\nomencref" t) target
    let missing := "No text for " ++ s.command
    let line (text : Text) : Text :=
      "\\nomenclature" ++ sortOptions sectionName s ++ "\x7b\\nomencLabel\x7b" ++ s.bareName ++ "\x7d\x7b" ++ label ++
        "\x7d\x7d\x7b\\nomencText\x7b" ++ s.bareName ++ "\x7d\x7b" ++ text ++ "\x7d\x7b" ++ target ++ "\x7d\x7d\n"
    if text = [] then
      (periodLog ++ [⟨.warn, missing⟩],
        .ok (note missing ++ line (Tex.applied "\\nomencMissExplanation" s.bareName)))
    else (periodLog, .ok (line text))

/-- What is written for a symbol in use. -/
def symbolEntry (sectionName : Text) (s : Symbol) : Logged :=
  if s.hasAttribute Tag.excluded then
    ([], .ok (note ("Skipping symbol " ++ s.command ++ " because of " ++ Tag.excluded)))
  else
    match s.labelAndText? with
    | none => ([], .ok (note ("Skipping symbol " ++ s.command ++ " because it has args.")))
    | some (label, text) => entry sectionName s label text

/-- The entries of the symbols in use, section by section. -/
def entries (usages : Option UsageMap) (c : Catalogue) : Logged :=
  concat (c.sections.values.flatMap fun sec =>
    ((c.symbolsOf sec).filter fun s => isUsed usages s.command).map (symbolEntry sec.name))

/-- A nomenclature in the given style, with its log. -/
def render (style : NomenclatureStyle) (usages : Option UsageMap) (c : Catalogue) : Logged :=
  match style with
  | .table => (usageLog c usages, (table usages c).map LongTable.render)
  | .entries =>
    let (log, text) := entries usages c
    (usageLog c usages ++ log, text)

end Nomenclature

end TexSymbols
