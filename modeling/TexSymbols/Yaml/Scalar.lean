import TexSymbols.Yaml.Chars
import TexSymbols.Yaml.Implicit

/-!
# Writing scalars

A string is written plain where YAML reads it back as that string, between single quotes where plain text would be
misread, between double quotes with escapes where it holds something unprintable, and as a literal block where it has
several lines.

* `Yaml.Style`, `Yaml.styleOf` — the style of a string.
* `Yaml.writeScalar` — the string in that style, with further lines indented.
-/

namespace TexSymbols.Yaml

/-- How a scalar is written. -/
inductive Style
  | plain
  | single
  | double
  | literal
deriving DecidableEq

/-- Whether somewhere in the text a character with `p` stands right before one with `q`. -/
def hasPair (p q : Char → Bool) (t : Text) : Bool := (t.zip t.tail).any fun e => p e.1 && q e.2

/-- Whether some tail of the text has the property. -/
def anyTail (p : Text → Bool) : Text → Bool
  | [] => false
  | c :: r => p (c :: r) || anyTail p r

/-- Marks with a meaning at the beginning of a node. -/
def startIndicators : List Char :=
  ['#', ',', '[', ']', '{', '}', '&', '*', '!', '|', '>', '\'', '"', '%', '@', '`']

/-- Whether the beginning of the text has a meaning of its own. -/
def startsSpecial (t : Text) : Bool :=
  (["---", "..."] : List Text).any (·.isPrefixOf t) ||
    match t with
    | [] => false
    | c :: r => c ∈ startIndicators || (c ∈ ['-', '?', ':'] && endsWord r)

/-- Whether there is a colon that would end a key, or a number sign that would begin a comment. -/
def holdsSpecial (t : Text) : Bool :=
  anyTail (fun u => u.head? = some ':' && endsWord u.tail) t ||
    hasPair (fun c => isBlank c || isBreak c) (· = '#') t

/-- Whether the text begins or ends with a space or a break. -/
def hasOuterSpace (t : Text) : Bool :=
  let space (c : Option Char) : Bool := c.any fun c => c = ' ' || isBreak c
  space t.head? || space t.getLast?

def isUnprintable (t : Text) : Bool := t.any fun c => !isPrintable c

/-- Whether the text may stand between single quotes: no space at a break, everything printable. -/
def singleAllowed (t : Text) : Bool :=
  !hasPair isBreak (· = ' ') t && !hasPair (· = ' ') isBreak t && !isUnprintable t

/-- Whether the text may be written plain, as far as its characters are concerned. -/
def plainAllowed (t : Text) : Bool :=
  !t.any isBreak && !hasOuterSpace t && singleAllowed t && !startsSpecial t && !holdsSpecial t

/-- Whether the text may be written as a literal block: no space at the end of a line, everything printable. -/
def literalAllowed (t : Text) : Bool :=
  t.getLast? != some ' ' && !hasPair (· = ' ') isBreak t && !isUnprintable t

/-- The style of a string. -/
def styleOf (t : Text) : Style :=
  if '\n' ∈ t then if literalAllowed t then .literal else .double
  else if plainAllowed t && !isImplicit t then .plain
  else if singleAllowed t then .single
  else .double

/-- The text between single quotes: quotes doubled, lines behind a break indented. -/
def singleBody (indent : Nat) : (atLine : Bool) → Text → Text
  | atLine, [] => if atLine then spaces indent else []
  | atLine, c :: r =>
    if isBreak c then c :: singleBody indent true r
    else
      (if atLine then spaces indent else []) ++ (if c = '\'' then ['\'', '\''] else [c]) ++ singleBody indent false r

/-- The last `n` hexadecimal digits of a number, in capitals. -/
def hexDigits (n value : Nat) : Text :=
  (List.range n).reverse.map fun i => (Nat.digitChar (value / Nat.pow 16 i % 16)).toUpper

/-- The letter of the short escape of a character. -/
def escapeLetter? (c : Char) : Option Char :=
  ([('\x00', '0'), ('\x07', 'a'), ('\x08', 'b'), ('\t', 't'), ('\n', 'n'), ('\x0b', 'v'), ('\x0c', 'f'), ('\r', 'r'),
    ('\x1b', 'e'), ('"', '"'), ('\\', '\\'), ('\u0085', 'N'), ('\u00a0', '_'), ('\u2028', 'L'),
    ('\u2029', 'P')].lookup c)

/-- A character between double quotes. -/
def doubleChar (c : Char) : Text :=
  if isPrintable c && !isBreak c && c ≠ '"' && c ≠ '\\' then [c]
  else
    match escapeLetter? c with
    | some letter => ['\\', letter]
    | none =>
      if c.toNat ≤ 0xFF then "\\x" ++ hexDigits 2 c.toNat
      else if c.toNat ≤ 0xFFFF then "\\u" ++ hexDigits 4 c.toNat
      else "\\U" ++ hexDigits 8 c.toNat

/-- The header of a literal block: an indentation of two is stated if the text begins with a space or a break; `-` says
that no break ends the text, `+` that more than one does. -/
def literalHeader (t : Text) : Text :=
  let indentation : Text := if t.head?.any fun c => c = ' ' || isBreak c then "2" else ""
  let ending : Text :=
    match t.reverse with
    | [] => "-"
    | c :: r => if !isBreak c then "-" else if r.head?.all isBreak then "+" else ""
  "|" ++ indentation ++ ending ++ "\n"

/-- The lines of a literal block, those that are not empty indented. -/
def literalBody (indent : Nat) : (atLine : Bool) → Text → Text
  | _, [] => []
  | atLine, c :: r =>
    if isBreak c then c :: literalBody indent true r
    else (if atLine then spaces indent else []) ++ c :: literalBody indent false r

/-- The string, with lines after the first one indented by `indent`. -/
def writeScalar (indent : Nat) (t : Text) : Text :=
  match styleOf t with
  | .plain => t
  | .single => "'" ++ singleBody indent false t ++ "'"
  | .double => "\"" ++ t.flatMap doubleChar ++ "\""
  | .literal => literalHeader t ++ literalBody indent true t

/-- The text with a line feed at its end unless a break stands there. -/
def endLine (t : Text) : Text := if t.getLast?.any isBreak then t else t ++ "\n"

end TexSymbols.Yaml
