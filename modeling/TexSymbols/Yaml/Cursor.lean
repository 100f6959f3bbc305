import TexSymbols.Yaml.Chars

/-!
# Cursors

A cursor stands between two characters of a document and knows line and column of its place.

* `Yaml.Position` — line and column; `Position.after` — the position behind a character.
* `Yaml.Cursor` — a position and the text that follows it.
* `Cursor.pass`, `Cursor.skip` — moving on over characters.
* `Yaml.normaliseBreaks` — every line break as one character.
-/

namespace TexSymbols.Yaml

/-- A place in a document, lines and columns counted from zero. -/
structure Position where
  line : Nat
  column : Nat
deriving DecidableEq

namespace Position

def start : Position := ⟨0, 0⟩

/-- The position behind a character that stands here. -/
def after (p : Position) (c : Char) : Position := if isBreak c then ⟨p.line + 1, 0⟩ else ⟨p.line, p.column + 1⟩

end Position

/-- A position and what follows it. -/
structure Cursor where
  rest : Text
  position : Position
deriving DecidableEq

namespace Cursor

def column (c : Cursor) : Nat := c.position.column

/-- The cursor behind a text that follows it. -/
def pass (c : Cursor) (passed : Text) : Cursor := ⟨c.rest.drop passed.length, passed.foldl Position.after c.position⟩

/-- The cursor behind some of the characters that follow it. -/
def skip (c : Cursor) (n : Nat) : Cursor := c.pass (c.rest.take n)

end Cursor

/-- Carriage returns and next-line characters at the end of lines as line feeds. -/
def normaliseBreaks : Text → Text
  | '\r' :: '\n' :: r => '\n' :: normaliseBreaks r
  | c :: r => (if c = '\r' ∨ c = '\u0085' then '\n' else c) :: normaliseBreaks r
  | [] => []

end TexSymbols.Yaml
