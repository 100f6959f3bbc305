import TexSymbols.Decimal
import TexSymbols.Text.Blank
import TexSymbols.Tex.Command
import TexSymbols.Tex.Group

/-!
# Definition lines

A definition line is `\newcommand`, `\renewcommand` or `\providecommand`, perhaps a star, the new command in
braces, perhaps its number of arguments in brackets, and the body in braces, with ASCII blanks between these
parts.  Everything after the body is its comment.

* `Definition` — what such a line says.
* `Definition.read` — reads a line: a definition, a definition with a number of arguments that is too large, or
  none.
-/

namespace TexSymbols

/-- A macro: its command, number of arguments and body, and the comment that stands behind it. -/
structure Definition where
  command : Text
  nargs : Nat
  body : Text
  comment : Text
deriving DecidableEq

/-- What a line is, as far as definitions are concerned. -/
inductive DefinitionReading
  | definition (d : Definition)
  /-- The line begins like a definition, but no definition has that many arguments. -/
  | oversizedArity (digits command : Text)
  | other
deriving DecidableEq

namespace Definition

/-- The commands that define a macro. -/
def keywords : List Text := ["\\newcommand", "\\renewcommand", "\\providecommand"]

/-- Numbers of arguments are below this bound. -/
def arityBound : Nat := Nat.pow 2 64

def skipBlanks (t : Text) : Text := t.dropWhile isAsciiBlank

/-- A leading row of digits in brackets, and what follows it. -/
def bracketedDigits? : Text → Option (Text × Text)
  | '[' :: r =>
    match r.takeWhile Char.isDigit, r.dropWhile Char.isDigit with
    | d :: ds, ']' :: rest => some (d :: ds, rest)
    | _, _ => none
  | _ => none

/-- The part of a definition line before the body: the command, the digits in brackets, and the rest of the
line, where the body should begin. -/
structure Head where
  command : Text
  digits : Option Text
  rest : Text
deriving DecidableEq

/-- Reads the part of the line before the body. -/
def Head.read? (line : Text) : Option Head := do
  let afterKeyword ← keywords.findSome? (Text.removePrefix? · (skipBlanks line))
  let afterStar :=
    match afterKeyword with
    | '*' :: r => r
    | r => r
  let r ← Text.removePrefix? "\x7b\\" (skipBlanks afterStar)
  let name := r.takeWhile isLetter
  let r ← Text.removePrefix? "\x7d" (r.dropWhile isLetter)
  if name.isEmpty then none
  else
    match bracketedDigits? (skipBlanks r) with
    | some (digits, r) => some ⟨'\\' :: name, some digits, skipBlanks r⟩
    | none => some ⟨'\\' :: name, none, skipBlanks r⟩

/-- The comment behind a body: without percent signs and without blanks at its ends. -/
def commentOf (rest : Text) : Text := Text.trim (rest.filter (· ≠ '%'))

/-- The definition with the given head and number of arguments, if a body follows. -/
def ofHead (h : Head) (nargs : Nat) : DefinitionReading :=
  match braceGroup? h.rest with
  | some (body, rest) => .definition ⟨h.command, nargs, body, commentOf rest⟩
  | none => .other

/-- Reads a line. -/
def read (line : Text) : DefinitionReading :=
  match Head.read? line with
  | none => .other
  | some h =>
    match h.digits with
    | none => ofHead h 0
    | some digits =>
      if Decimal.value digits < arityBound then ofHead h (Decimal.value digits)
      else .oversizedArity digits h.command

end Definition

end TexSymbols
