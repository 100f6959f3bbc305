import TexSymbols.Catalogue.Reader

/-!
# Compacted definitions

The files of a run as one file: ordinary lines as they are, every symbol as a definition that may be read any number
of times.

* `CompactOptions` — which symbols are kept, and what is put around the bodies of those without arguments.
* `compact` — the file.
-/

namespace TexSymbols

/-- Options of compacting. -/
structure CompactOptions where
  /-- Keep only the symbols with this attribute. -/
  select : Option Text := none
  /-- Colour of bodies. -/
  color : Option Text := none
  /-- Mark the first use of each symbol. -/
  markFirst : Bool := false
deriving DecidableEq

namespace CompactOptions

/-- The body in its colour. -/
def colorBody (o : CompactOptions) (body : Text) : Text :=
  match o.color with
  | none => body
  | some color => "\x7b\\color\x7b" ++ color ++ "\x7d " ++ body ++ "\x7d"

/-- Name of the flag that says whether a symbol was used. -/
def flag (s : Symbol) : Text := "used" ++ s.bareName

/-- The body inside the macro that marks its first use. -/
def markBody (o : CompactOptions) (s : Symbol) (body : Text) : Text :=
  if o.markFirst then
    "\\markfirst\x7b" ++ s.bareName ++ "\x7d\x7b" ++ flag s ++ "\x7d\x7b" ++ body ++ "\x7d"
  else body

/-- The definition of the flag of a symbol. -/
def flagLine (s : Symbol) : Text :=
  "\\newbool\x7b" ++ flag s ++ "\x7d\\setbool\x7b" ++ flag s ++ "\x7d\x7bfalse\x7d\n"

/-- What is written for a symbol. -/
def symbolText (o : CompactOptions) (s : Symbol) : Text :=
  match o.select.filter fun tag => !s.hasAttribute tag with
  | some tag => "% " ++ s.command ++ ": Skipped because no field " ++ Text.quoted tag ++ "\n"
  | none =>
    if s.nargs = 0 then
      (if o.markFirst then flagLine s else []) ++ s.regenerate (fun body => o.markBody s (o.colorBody body)) ++ "\n"
    else s.texDefinition ++ "\n"

/-- What is written for an event. -/
def eventText (o : CompactOptions) (c : Catalogue) : Event → Text
  | .passthrough line _ => line ++ "\n"
  | .defined command => ((c.symbols.find? command).map o.symbolText).getD []
  | .declared _ => []

/-- A commented-out definition of the macro that marks first uses, if it is used. -/
def preamble (o : CompactOptions) : Text :=
  if o.markFirst then "%\\newcommand\x7b\\markfirst\x7d[3]\x7b#3\x7d\n" else []

end CompactOptions

/-- The events of a run as one file. -/
def compact (o : CompactOptions) (c : Catalogue) (events : List Event) : Text :=
  o.preamble ++ events.flatMap (o.eventText c)

end TexSymbols
