import TexSymbols.Catalogue
import TexSymbols.Listing.Error
import TexSymbols.Tex.Style

/-!
# Selected sections

* `Catalogue.sectionsMatching` — the sections whose names contain one of some comma-separated fragments.
* `Selection` — which sections to write, and which of them in which colour.
* `Selection.render` — the definitions of their symbols.
-/

namespace TexSymbols

/-- The fragments of a comma-separated list, without blanks at their ends; blank ones do not count. -/
def fragmentsOf (which : Text) : List Text := ((Text.splitOn ',' which).map Text.trim).filter (· ≠ [])

/-- The fragment that matches every section. -/
def everySection : Text := "all"

/-- Whether a fragment matches a section name. -/
def fragmentMatches (fragment name : Text) : Bool := fragment == everySection || Text.occursIn fragment name

namespace Catalogue

/-- Names of the sections that a fragment matches; there has to be one. -/
def namesMatching (c : Catalogue) (fragment : Text) : Except ListingError (List Text) :=
  match c.sections.keys.filter (fragmentMatches fragment) with
  | [] => .error (.unknownSection fragment c.sections.keys)
  | names => .ok names

/-- The sections matched by the fragments, each once, in the order of the first fragments that match them. -/
def sectionsMatching (c : Catalogue) (which : Text) : Except ListingError (List Section) := do
  let names ← (fragmentsOf which).mapM c.namesMatching
  return (Text.distinct names.flatten).filterMap c.sections.find?

end Catalogue

/-- A choice of sections.  Each field is a comma-separated list of name fragments. -/
structure Selection where
  included : Text := everySection
  red : Text := []
  green : Text := []
  blue : Text := []
deriving DecidableEq

namespace Selection

/-- The sections of each colour. -/
structure Palette where
  red : List Section
  blue : List Section
  green : List Section

/-- The colour of a section: red prevails over blue, blue over green. -/
def Palette.colour? (p : Palette) (s : Section) : Option Rgb :=
  if s ∈ p.red then some .darkRed
  else if s ∈ p.blue then some .darkBlue
  else if s ∈ p.green then some .darkGreen
  else none

/-- The definition of a symbol whose body has the given colour. -/
def symbolText (colour : Option Rgb) (s : Symbol) : Text :=
  match colour with
  | some rgb => s.regenerate (fun body => Tex.coloured rgb (" " ++ body)) ++ "\n"
  | none => s.texDefinition ++ "\n"

/-- The definitions of all symbols of the selected sections. -/
def render (sel : Selection) (c : Catalogue) : Except ListingError Text := do
  let sections ← c.sectionsMatching sel.included
  if sections = [] then throw (.nothingSelected sel.included)
  let red ← c.sectionsMatching sel.red
  let blue ← c.sectionsMatching sel.blue
  let green ← c.sectionsMatching sel.green
  let palette : Palette := ⟨red, blue, green⟩
  return sections.flatMap fun s => (c.symbolsOf s).flatMap (symbolText (palette.colour? s))

end Selection

end TexSymbols
