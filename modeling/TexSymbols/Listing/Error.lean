import TexSymbols.Text.Quoted

/-!
# Errors of listings

* `ListingError` — why a listing cannot be written.
* `ListingError.message` — the wording.
-/

namespace TexSymbols

/-- Why a listing cannot be written. -/
inductive ListingError
  | unknownStyle (style : Text) (known : List Text)
  /-- A cross-reference lacks the part before the colon. -/
  | unprefixedReference (command reference : Text)
  /-- No section name contains the fragment. -/
  | unknownSection (fragment : Text) (available : List Text)
  /-- The fragments select no section. -/
  | nothingSelected (fragments : Text)
deriving DecidableEq

def ListingError.message : ListingError → Text
  | unknownStyle style known =>
    "No known style " ++ Text.quoted style ++ ". Valid options: " ++ Text.join ", " known ++ "."
  | unprefixedReference command reference =>
    "While considering symbol " ++ command ++ ": could not find a prefix for reference " ++ Text.quoted reference ++
      "; \\cref needs one (e.g. \"eq:" ++ reference ++ "\")"
  | unknownSection fragment available =>
    "Section " ++ Text.quoted fragment ++ " not found in " ++ Text.quotedList available
  | nothingSelected fragments => "No sections selected (which: " ++ Text.quoted fragments ++ ")"

end TexSymbols
