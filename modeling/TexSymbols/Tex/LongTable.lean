import TexSymbols.Decimal

/-!
# Long tables

* `LongTable` — column specification and rows of a `longtable` environment.
* `LongTable.render` — the environment, one line per row or rule.
-/

namespace TexSymbols

/-- A row of a table. -/
inductive LongTable.Row
  /-- Cells, filled up to the number of columns by empty ones. -/
  | cells (cells : List Text)
  /-- Some cells and then one that spans several columns. -/
  | spanning (lead : List Text) (span : Nat) (align : Text) (text : Text)
  /-- A horizontal rule. -/
  | rule
deriving DecidableEq

/-- A `longtable` environment. -/
structure LongTable where
  columns : List Text
  rows : List LongTable.Row

namespace LongTable

/-- Cells on a line. -/
def line (cells : List Text) : Text := Text.join " & " cells ++ " \\\\\n"

/-- A row of a table with the given number of columns. -/
def Row.render (columns : Nat) : Row → Text
  | cells cs => line (cs ++ List.replicate (columns - cs.length) [])
  | spanning lead span align text =>
    line (lead ++ ["\\multicolumn\x7b" ++ Decimal.digits span ++ "\x7d\x7b" ++ align ++ "\x7d\x7b" ++ text ++ "\x7d"])
  | rule => "\\hline\n"

/-- The whole environment. -/
def render (t : LongTable) : Text :=
  "\\begin\x7blongtable\x7d\x7b" ++ t.columns.flatten ++ "\x7d\n" ++ t.rows.flatMap (Row.render t.columns.length) ++
    "\\end\x7blongtable\x7d\n"

end LongTable

end TexSymbols
