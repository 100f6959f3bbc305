import TexSymbols.Catalogue

/-!
# The order of listings

* `Order` — whether sections and symbols are listed by name or as they were defined.
* `Order.sections`, `Order.symbols` — the sections of a catalogue and the symbols of a section in that order.
-/

namespace TexSymbols

/-- How a listing is ordered; by default as things were defined. -/
structure Order where
  sectionsByName : Bool := false
  symbolsByName : Bool := false
deriving DecidableEq

namespace Order

/-- The sections, by name or as they were defined. -/
def sections (o : Order) (c : Catalogue) : List Section :=
  c.sections.values.mergeSort fun a b => if o.sectionsByName then Text.le a.name b.name else a.order ≤ b.order

/-- Commands are compared without regard to capitals. -/
def sortKey (s : Symbol) : Text := s.command.map Char.toLower

/-- The symbols of a section, by name or as they were defined. -/
def symbols (o : Order) (c : Catalogue) (s : Section) : List Symbol :=
  (c.symbolsOf s).mergeSort fun a b => if o.symbolsByName then Text.le (sortKey a) (sortKey b) else a.order ≤ b.order

end Order

end TexSymbols
