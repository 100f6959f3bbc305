import TexSymbols.Attributes
import TexSymbols.Location

/-!
# Sections

* `Section` — a named group of symbols.  Its name may be reserved before it is declared.
* `Section.parent` — the name of the section above it: the part of its name before the last slash.
-/

namespace TexSymbols

/-- What the declaration of a section says. -/
structure Declaration where
  description : Text
  attributes : Attributes
  loc : Location
deriving DecidableEq

/-- A named group of symbols. -/
structure Section where
  name : Text
  /-- Place in the order of definition. -/
  order : Nat
  /-- The declaration; a section whose name is only reserved has none. -/
  declaration : Option Declaration
  /-- Commands of the symbols of the section, in the order in which they came. -/
  symbols : List Text
  /-- Names of the sections directly below, as of the last time the hierarchy was linked. -/
  subs : List Text
deriving DecidableEq

/-- Name of the section above, which need not exist: what stands before the last slash. -/
def parentName (name : Text) : Option Text := (Text.splitLast '/' name).map fun p => Text.trim p.1

namespace Section

def parent (s : Section) : Option Text := parentName s.name

def isTopLevel (s : Section) : Bool := s.parent.isNone

/-- Whether the name is reserved and not declared yet. -/
def isReserved (s : Section) : Bool := s.declaration.isNone

/-- The description; empty while the name is only reserved. -/
def description (s : Section) : Text := (s.declaration.map Declaration.description).getD []

/-- The attributes that every symbol of the section inherits. -/
def attributes (s : Section) : Attributes := (s.declaration.map Declaration.attributes).getD .empty

/-- Where the section was declared. -/
def loc (s : Section) : Location := (s.declaration.map Declaration.loc).getD ⟨"<reserved>", 0, ""⟩

end Section

end TexSymbols
