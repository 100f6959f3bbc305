import TexSymbols.Location
import TexSymbols.Tex.Definition

/-!
# Tokens of a definitions file

* `Token` — a definition line, a tagged block, or any other line.
* `Block` — a tagged comment `%:tag: content` with the plain comment lines that continue it.
* `Block.value`, `Block.content` — the lines of a block as one text.
-/

namespace TexSymbols

/-- A tagged comment and its continuation lines, without comment signs and empty lines. -/
structure Block where
  tag : Text
  lines : List Text
  loc : Location
deriving DecidableEq

namespace Block

/-- The lines with blanks between them. -/
def content (b : Block) : Text := Text.join " " b.lines

/-- The value that the block gives to its tag. -/
def value (b : Block) : Text := Text.trim b.content

end Block

/-- A line of a definitions file, or a run of lines. -/
inductive Token
  | definition (d : Definition) (loc : Location)
  | block (b : Block)
  | passthrough (line : Text) (loc : Location)
deriving DecidableEq

/-- Where the token begins. -/
def Token.loc : Token → Location
  | definition _ loc => loc
  | block b => b.loc
  | passthrough _ loc => loc

end TexSymbols
