import TexSymbols.OrderedMap
import TexSymbols.Text.Blank

/-!
# Attributes and their tags

* `Attributes` — an ordered map from tags to values.
* `Tag` — the tags with a meaning of their own.
* `Tag.known`, `Tag.knownWith` — the vocabulary that is accepted without a warning.
-/

namespace TexSymbols

/-- Values of tags, in the order in which the tags were first given. -/
abbrev Attributes := OrderedMap Text Text

namespace Tag

/-- Declares a section. -/
def declares : Text := "section"

/-- Target of a cross-reference; the value of the section prevails over that of the symbol. -/
def reference : Text := "def"

/-- Entry of the nomenclature, `label:text`. -/
def entry : Text := "nomenc"

/-- Leaves the symbol out of the nomenclature. -/
def excluded : Text := "nomenc-exclude"

/-- Suppresses the rendering in the full listing. -/
def unrendered : Text := "nosummary"

/-- Sort key in the nomenclature. -/
def sortKey : Text := "sort"

/-- A piece of source that shows the symbol in use. -/
def sample : Text := "example"

/-- The tags that are accepted without a warning. -/
def known : List Text :=
  [reference, entry, excluded, unrendered, sortKey, "notfinal", "deprecated", sample, "todo", "no-inline", "if"]

/-- The usual vocabulary and further tags; blanks around a tag do not count, empty ones are dropped. -/
def knownWith (extra : List Text) : List Text :=
  extra.foldl
    (fun tags tag =>
      let tag := Text.trim tag
      if tag.isEmpty ∨ tag ∈ tags then tags else tags ++ [tag])
    known

end Tag

end TexSymbols
