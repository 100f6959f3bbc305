import TexSymbols.ReadError
import TexSymbols.Section
import TexSymbols.Symbol

/-!
# The catalogue

All sections and symbols of a run, over all its files, in the order in which they came.

* `Catalogue` — sections, symbols, warnings, and the counter that numbers sections and symbols together.
* `Catalogue.reserve`, `Catalogue.declare`, `Catalogue.register` — the operations that add to it.
* `Catalogue.symbolsOf` — the symbols of a section.
-/

namespace TexSymbols

/-- All sections and symbols seen so far. -/
structure Catalogue where
  /-- Tags that are accepted without a warning. -/
  knownTags : List Text
  sections : OrderedMap Text Section
  symbols : OrderedMap Text Symbol
  warnings : List Warning
  /-- The number that the next section or symbol gets. -/
  nextOrder : Nat

namespace Catalogue

/-- The catalogue without sections and symbols. -/
def new (knownTags : List Text) : Catalogue := ⟨knownTags, .empty, .empty, [], 0⟩

/-- Whether sections or symbols are missing. -/
def isEmpty (c : Catalogue) : Bool := c.sections.isEmpty || c.symbols.isEmpty

/-- The symbols of a section, in the order in which they came. -/
def symbolsOf (c : Catalogue) (s : Section) : List Symbol := s.symbols.filterMap c.symbols.find?

/-- Add warnings. -/
def warn (c : Catalogue) (ws : List Warning) : Catalogue := { c with warnings := c.warnings ++ ws }

/-- Add a section under a name that is not known. -/
def addSection (c : Catalogue) (name : Text) (declaration : Option Declaration) : Catalogue :=
  { c with
    sections := c.sections.insert name ⟨name, c.nextOrder, declaration, [], []⟩
    nextOrder := c.nextOrder + 1 }

/-- Reserve a name, so that a later declaration completes the section.  Nothing happens if it is known. -/
def reserve (c : Catalogue) (name : Text) : Catalogue :=
  if c.sections.contains name then c else c.addSection name none

/-- Declare a section: a new one, or one whose name is reserved. -/
def declare (c : Catalogue) (name : Text) (d : Declaration) : Except ReadError Catalogue :=
  match c.sections.find? name with
  | none => .ok (c.addSection name (some d))
  | some known =>
    match known.declaration with
    | some earlier => .error (.duplicateSection name d.loc earlier.loc)
    | none => .ok { c with sections := c.sections.modify name fun s => { s with declaration := some d } }

/-- Add a symbol, numbered by the counter, to the catalogue and to its section. -/
def register (c : Catalogue) (s : Symbol) : Catalogue :=
  { c with
    sections := c.sections.modify s.owner fun o => { o with symbols := o.symbols ++ [s.command] }
    symbols := c.symbols.insert s.command s
    nextOrder := c.nextOrder + 1 }

end Catalogue

end TexSymbols
