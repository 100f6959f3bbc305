import TexSymbols.Attributes
import TexSymbols.Warning

/-!
# Inherited attributes

A symbol has the attributes of its section and its own.  Where both give a value the symbol's prevails, except for
the cross-reference, where the section's does.

* `Attributes.inherit` — the attributes of a symbol.
* `Attributes.disagreements` — the tags for which section and symbol give different values.
-/

namespace TexSymbols.Attributes

/-- The value of the section that differs from `value`, if there is one. -/
def differing? (inherited : Attributes) (tag value : Text) : Option Text :=
  (inherited.find? tag).filter (· ≠ value)

/-- The attributes of the section overlaid with those of the symbol. -/
def inherit (inherited own : Attributes) : Attributes :=
  own.entries.foldl
    (fun merged e =>
      if e.1 = Tag.reference ∧ (inherited.differing? e.1 e.2).isSome then merged else merged.insert e.1 e.2)
    inherited

/-- One warning for each tag with different values, in the order of the symbol's attributes. -/
def disagreements (command : Text) (loc : Location) (inherited own : Attributes) : List Warning :=
  own.entries.filterMap fun e =>
    (inherited.differing? e.1 e.2).map fun sectionValue => .disagreement command e.1 sectionValue e.2 loc

end TexSymbols.Attributes
