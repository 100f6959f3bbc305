import TexSymbols.Location
import TexSymbols.Text.Quoted

/-!
# Errors of reading definitions

* `ReadError` — the reasons for which a definitions file is refused.
* `ReadError.loc`, `ReadError.earlier` — the line at fault, and the earlier declaration that it collides with.
* `ReadError.message` — the wording.
-/

namespace TexSymbols

/-- Why a definitions file is refused. -/
inductive ReadError
  /-- A definition stands before the first section of its file. -/
  | noSection (loc : Location)
  | duplicateSection (name : Text) (loc earlier : Location)
  | duplicateSymbol (command : Text) (loc earlier : Location)
  /-- The content of a section tag is not `name : description`. -/
  | malformedSection (content : Text) (loc : Location)
  /-- The value of a nomenclature tag is not `label:text`. -/
  | malformedNomenclature (value : Text) (loc : Location)
  /-- A tagged comment lacks the colon that ends its tag. -/
  | unterminatedTag (loc : Location)
deriving DecidableEq

namespace ReadError

/-- The line at fault. -/
def loc : ReadError → Location
  | noSection loc => loc
  | duplicateSection _ loc _ => loc
  | duplicateSymbol _ loc _ => loc
  | malformedSection _ loc => loc
  | malformedNomenclature _ loc => loc
  | unterminatedTag loc => loc

/-- The earlier declaration of what is declared twice. -/
def earlier : ReadError → Option Location
  | duplicateSection _ _ earlier => some earlier
  | duplicateSymbol _ _ earlier => some earlier
  | _ => none

def message : ReadError → Text
  | noSection loc => "No section defined yet.\n" ++ loc.render
  | duplicateSection name loc earlier =>
    "Already know section " ++ Text.quoted name ++ " from " ++ earlier.render ++ "\n" ++ loc.render
  | duplicateSymbol command loc earlier =>
    "Already know symbol " ++ Text.quoted command ++ " from " ++ earlier.render ++ "\n" ++ loc.render
  | malformedSection content loc =>
    "Malformed section tag " ++ Text.quoted content ++ ": expected \"name : description\"\n" ++ loc.render
  | malformedNomenclature value loc =>
    "Malformed nomenclature " ++ Text.quoted value ++ ": expected \"label:text\"\n" ++ loc.render
  | unterminatedTag loc => "No closing \":\" found after \"%:\".\n" ++ loc.render

end ReadError

end TexSymbols
