import TexSymbols.Location
import TexSymbols.Text.Quoted

/-!
# Warnings

* `Warning` — problems that do not stop the reading of definitions.
* `Warning.message` — the wording.
* `Notice` — all that reading has to report: warnings, and definition lines that were left as they are.
-/

namespace TexSymbols

/-- A problem noticed while reading definitions. -/
inductive Warning
  /-- The tag is not in the vocabulary. -/
  | unknownTag (tag : Text) (loc : Location)
  /-- The tag was given before in the same run of tagged blocks. -/
  | tagOverwritten (tag : Text) (loc : Location)
  /-- There is no definition and no section that the tagged block could belong to. -/
  | floatingTag (tag : Text) (loc : Location)
  /-- A symbol and its section give different values. -/
  | disagreement (command tag sectionValue symbolValue : Text) (loc : Location)
deriving DecidableEq

def Warning.message : Warning → Text
  | unknownTag tag loc => "unknown tag " ++ Text.quoted tag ++ "\n   at: " ++ loc.render
  | tagOverwritten tag loc =>
    "tag " ++ Text.quoted tag ++ " given twice, keeping the last\n   at: " ++ loc.render
  | floatingTag tag loc =>
    "floating tagged line " ++ Text.quoted tag ++ " is not attached to anything\n   at: " ++ loc.render
  | disagreement command tag sectionValue symbolValue loc =>
    command ++ ": attribute " ++ Text.quoted tag ++ " is " ++ Text.quoted symbolValue ++ " but its section says " ++
      Text.quoted sectionValue ++ "\n   at: " ++ loc.render

/-- What reading definitions has to report. -/
inductive Notice
  | warning (w : Warning)
  /-- A definition line is taken as an ordinary line because of its number of arguments. -/
  | oversizedArity (digits command : Text)
deriving DecidableEq

def Notice.message : Notice → Text
  | warning w => w.message
  | oversizedArity digits command =>
    "Arity [" ++ digits ++ "] of " ++ command ++
      " is unusable (number too large to fit in target type), keeping the line as is"

end TexSymbols
