import TexSymbols.Catalogue.Reader
import TexSymbols.Text.Quoted

/-!
# Tokens and events in full

One line for a token or an event, with every field by its name and texts quoted.

* `Location.inspect`, `Token.inspect`, `Event.inspect` — the lines.
-/

namespace TexSymbols

/-- A name and fields in braces. -/
def inspectFields (name : Text) (fields : List (Text × Text)) : Text :=
  name ++ " \x7b " ++ Text.join ", " (fields.map fun f => f.1 ++ ": " ++ f.2) ++ " \x7d"

def Location.inspect (l : Location) : Text :=
  inspectFields "Location"
    [("filename", Text.quoted l.file), ("line", Decimal.digits l.line), ("text", Text.quoted l.text)]

def inspectPassthrough (line : Text) (loc : Location) : Text :=
  inspectFields "Passthrough" [("line", Text.quoted line), ("location", loc.inspect)]

def Token.inspect : Token → Text
  | definition d loc =>
    inspectFields "Definition"
      [("command", Text.quoted d.command), ("nargs", Decimal.digits d.nargs), ("body", Text.quoted d.body),
        ("comment", Text.quoted d.comment), ("location", loc.inspect)]
  | block b =>
    inspectFields "TaggedBlock"
      [("tag", Text.quoted b.tag), ("lines", Text.quotedList b.lines), ("location", b.loc.inspect)]
  | passthrough line loc => inspectPassthrough line loc

def Event.inspect : Event → Text
  | declared name => "Section(" ++ Text.quoted name ++ ")"
  | defined command => "Symbol(" ++ Text.quoted command ++ ")"
  | passthrough line loc => inspectPassthrough line loc

end TexSymbols
