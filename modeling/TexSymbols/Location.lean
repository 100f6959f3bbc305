import TexSymbols.Decimal

/-!
# Locations

* `Location` — where something was found: file, line number and the text of the line.
* `Location.text` — how a location is shown in messages.
-/

namespace TexSymbols

/-- A line of a file.  Lines are counted from one. -/
structure Location where
  file : Text
  line : Nat
  text : Text
deriving DecidableEq

namespace Location

/-- The location of a line; line feeds and carriage returns at its end are not part of the text. -/
def ofLine (file : Text) (line : Nat) (text : Text) : Location :=
  ⟨file, line, (text.reverse.dropWhile fun c => c = '\n' || c = '\r').reverse⟩

/-- File, line number (to a width of four) and text. -/
def render (l : Location) : Text :=
  l.file ++ ": line " ++ Text.padLeft 4 (Decimal.digits l.line) ++ ": " ++ l.text

end Location

end TexSymbols
