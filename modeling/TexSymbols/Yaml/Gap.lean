import TexSymbols.Yaml.Cursor

/-!
# Gaps in scalars

* `Yaml.Gap` — white space that was passed within a scalar and whose meaning depends on what follows.
* `Gap.text` — the gap as a part of the scalar, lines folded.
* `Yaml.prepend` — a piece in front of a scalar that was read.
-/

namespace TexSymbols.Yaml

/-- White space between two pieces of text. -/
inductive Gap
  /-- Blanks on one line. -/
  | blanks (t : Text)
  /-- Line breaks, the first of which may have been escaped; the blanks around them do not count. -/
  | breaks (first : Option Char) (more : Text)
deriving DecidableEq

namespace Gap

def empty : Gap := blanks []

/-- A single line feed becomes a space; of several the first one is dropped; other breaks stay. -/
def text : Gap → Text
  | blanks t => t
  | breaks none more => more
  | breaks (some first) more => if first = '\n' then if more.isEmpty then [' '] else more else first :: more

def hasBreak : Gap → Bool
  | blanks _ => false
  | breaks _ _ => true

/-- The gap with another blank or line break. -/
def add (g : Gap) (c : Char) : Gap :=
  match g with
  | blanks t => if isBreak c then breaks (some c) [] else blanks (t ++ [c])
  | breaks first more => if isBreak c then breaks first (more ++ [c]) else g

end Gap

/-- A piece in front of a text that was read. -/
def prepend {α : Type} (piece : Text) (p : Option (Text × α)) : Option (Text × α) :=
  p.map fun p => (piece ++ p.1, p.2)

end TexSymbols.Yaml
