import TexSymbols.Listing.Error
import TexSymbols.Listing.Order
import TexSymbols.Tex.LongTable
import TexSymbols.Tex.Style

/-!
# Listing the symbols in a table

* `TableStyle` — the full table (source, rendering, description and boxed samples) and the minimal one (rendering and
  description of symbols without arguments).
* `TableStyle.render` — the table of a catalogue.
-/

namespace TexSymbols

/-- The form of a table of symbols. -/
inductive TableStyle
  /-- Samples are boxed to the given width. -/
  | full (sampleWidth : Text)
  | minimal
deriving DecidableEq

namespace TableStyle

open LongTable (Row)

/-- Names of the styles. -/
def names : List Text := ["full", "minimal"]

def ofName (name : Text) : Except ListingError TableStyle :=
  if name = ("full" : Text) then .ok (full "8cm")
  else if name = ("minimal" : Text) then .ok minimal
  else .error (.unknownStyle name names)

/-- The rules below the heading of a section. -/
def rules (s : Section) : List Row := if s.isTopLevel then [.rule, .rule] else [.rule]

/-- A call of a command with dots for its arguments. -/
def dottedCall (s : Symbol) : Text := Tex.applied s.command (Text.join "," (List.replicate s.nargs "..."))

/-- A sample above its own source, in a grey box. -/
def boxedSample (width sample : Text) : Text :=
  Tex.applied "\\fbox" (Tex.coloured .grey
    ("\\begin\x7bminipage\x7d\x7b" ++ width ++ "\x7d" ++ sample ++ "\\par " ++
      Tex.small (Tex.teletype (Tex.escape sample)) ++ "\\end\x7bminipage\x7d"))

/-- The rows of a symbol in the full table. -/
def fullRows (width : Text) (s : Symbol) : List Row :=
  let first :=
    if s.nargs = 0 then
      [Tex.asTyped s.command, if s.hasAttribute Tag.unrendered then "(nosummary)" else Tex.math s.command, s.comment]
    else [Tex.asTyped (dottedCall s), [], s.comment]
  match s.sample with
  | none => [.cells first]
  | some sample => [.cells first, .cells [[], [], boxedSample width sample]]

/-- The row of a symbol in the minimal table. -/
def minimalRows (s : Symbol) : List Row := if s.nargs = 0 then [.cells [Tex.math s.command, s.comment]] else []

/-- The heading of a section. -/
def heading (style : TableStyle) (s : Section) : List Row :=
  match style with
  | full _ => [.cells [[], [], []], .spanning [Tex.asTyped s.name] 2 "l" (Tex.emphasised s.description)] ++ rules s
  | minimal => .spanning [] 2 "l" s.description :: rules s

/-- The rows of a symbol. -/
def symbolRows : TableStyle → Symbol → List Row
  | full width => fullRows width
  | minimal => minimalRows

def columns : TableStyle → List Text
  | full _ => ["l", "l", "l"]
  | minimal => ["c", "l"]

/-- The table of a catalogue. -/
def table (style : TableStyle) (order : Order) (c : Catalogue) : LongTable :=
  ⟨style.columns,
    (order.sections c).flatMap fun s => style.heading s ++ (order.symbols c s).flatMap style.symbolRows⟩

def render (style : TableStyle) (order : Order) (c : Catalogue) : Text := (style.table order c).render

end TableStyle

end TexSymbols
