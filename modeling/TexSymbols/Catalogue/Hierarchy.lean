import TexSymbols.Catalogue

/-!
# The hierarchy of sections

Slashes in names make a hierarchy: `greek/upper` is below `greek`.

* `Catalogue.link` — gives every section the list of the sections whose parent it is.
* `parentFirst` — sections in order, each followed at once by the later ones below it.
-/

namespace TexSymbols

/-- Names of the sections whose parent is `name`, in order. -/
def childrenOf (sections : List Section) (name : Text) : List Text :=
  (sections.filter fun s => s.parent = some name).map Section.name

/-- Give every section its direct children.  A section whose parent is not there is a child of none. -/
def Catalogue.link (c : Catalogue) : Catalogue :=
  { c with sections := c.sections.mapValues fun _ s => { s with subs := childrenOf c.sections.values s.name } }

/-- Whether the name of `s` continues that of `above` behind a slash. -/
def Section.isBelow (s above : Section) : Bool := (above.name ++ ['/']).isPrefixOf s.name

/-- The sections below `s`, in order. -/
def Section.below (s : Section) (sections : List Section) : List Section := sections.filter (·.isBelow s)

/-- The sections that are not below `s`, in order. -/
def Section.aside (s : Section) (sections : List Section) : List Section := sections.filter fun t => !t.isBelow s

/-- The sections in order, except that each one is followed at once by all later ones below it. -/
def parentFirst : List Section → List Section
  | [] => []
  | s :: rest => s :: (s.below rest ++ parentFirst (s.aside rest))
termination_by sections => sections.length
decreasing_by exact Nat.lt_succ_of_le (List.length_filter_le ..)

/-- The sections of a catalogue, parents first. -/
def Catalogue.sectionsParentFirst (c : Catalogue) : List Section := parentFirst c.sections.values

end TexSymbols
