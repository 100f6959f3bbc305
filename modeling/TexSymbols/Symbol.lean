import TexSymbols.Attributes.Run

/-!
# Symbols

* `NomenclatureEntry` — a label and its explanation; `NomenclatureEntry.read?` reads `label:text`.
* `Symbol` — a macro definition and everything known about it.
* `Symbol.regenerate` — definitions of all names of a symbol that may be read any number of times.
* `Symbol.references` — the commands its body uses.
-/

namespace TexSymbols

/-- A label of the nomenclature and the text that explains it. -/
structure NomenclatureEntry where
  label : Text
  text : Text
deriving DecidableEq

/-- Reads `label:text`.  A blank value gives no entry; `none` unless there is exactly one colon. -/
def NomenclatureEntry.read? (value : Text) : Option (Option NomenclatureEntry) :=
  match Text.trim value, Text.splitOnce ':' (Text.trim value) with
  | [], _ => some none
  | _, some (label, text) => if ':' ∈ text then none else some (some ⟨Text.trim label, Text.trim text⟩)
  | _, none => none

/-- A macro definition with its place in a catalogue. -/
structure Symbol extends Definition where
  /-- Further names with the same body. -/
  synonyms : List Text
  /-- Name of the section that the symbol belongs to. -/
  owner : Text
  /-- A piece of source that shows the symbol in use. -/
  sample : Option Text
  nomenclature : Option NomenclatureEntry
  /-- Attributes of the section together with the symbol's own. -/
  attributes : Attributes
  loc : Location
  /-- Place in the order of definition. -/
  order : Nat
deriving DecidableEq

namespace Symbol

/-- All names that the symbol defines, its command first. -/
def names (s : Symbol) : List Text := s.command :: s.synonyms

/-- The command without its backslash. -/
def bareName (s : Symbol) : Text := s.command.dropWhile (· = '\\')

def hasAttribute (s : Symbol) (tag : Text) : Bool := s.attributes.contains tag

/-- Name, number of arguments unless zero, and body, as they follow `\newcommand`. -/
def parameters (name : Text) (nargs : Nat) (body : Text) : Text :=
  let arity : Text := if nargs = 0 then "" else "[" ++ Decimal.digits nargs ++ "]"
  "\x7b" ++ name ++ "\x7d" ++ arity ++ "\x7b" ++ body ++ "\x7d"

/-- Lines that redefine `name` if it is defined and define it otherwise. -/
def guarded (name : Text) (nargs : Nat) (body : Text) : Text :=
  let ps := parameters name nargs body
  "\\ifdefined" ++ name ++ "%\n  \\renewcommand" ++ ps ++ "%\n\\else%\n  \\newcommand" ++ ps ++ "%\n\\fi\n"

/-- Definitions of all names with the body changed by `wrap`; the description follows as a comment. -/
def regenerate (s : Symbol) (wrap : Text → Text) : Text :=
  let definitions := Text.join "\n" (s.names.map fun name => guarded name s.nargs (wrap s.body))
  if s.comment.isEmpty then definitions else definitions ++ "% " ++ s.comment

/-- Definitions of all names. -/
def texDefinition (s : Symbol) : Text := s.regenerate id

/-- The commands in the body, each once, in order of first appearance. -/
def references (s : Symbol) : List Text := distinctCommands s.body

end Symbol

end TexSymbols
