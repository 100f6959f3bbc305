import TexSymbols.Listing.Order
import TexSymbols.Proofs.Catalogue.OneLine
import TexSymbols.Proofs.Listing.Selection
import TexSymbols.Proofs.Text.Order

/-!
# Sections and symbols in order

* `pairwise_mergeSort_ties`, `pairwise_mergeSort_key` — sorting is stable: elements with the same
  key stay as they were.
* `Catalogue.WellFormed.sections_byName`, `symbols_byName` — the order of names, and of commands
  without regard to capitals.
* `Catalogue.WellFormed.map_sections_eq` — by name, the sections do not depend on the order in which
  they were declared.
* `Order.Arrangement`, `Catalogue.arrangement_run` — how a catalogue is listed, after every run.
-/

namespace TexSymbols

/-! ## Stable sorting -/

section Sorting

variable {α κ : Type} {le : α → α → Bool} {R : α → α → Prop} {xs : List α}

/-- Elements that the order does not tell apart stay as they were. -/
theorem pairwise_mergeSort_ties (htrans : ∀ a b c, le a b = true → le b c = true → le a c = true)
    (htotal : ∀ a b, (le a b || le b a) = true) (h : xs.Pairwise R) :
    (xs.mergeSort le).Pairwise fun a b => le b a = true → R a b := by
  induction xs with
  | nil => rw [List.mergeSort_nil]; exact .nil
  | cons x xs ih =>
    obtain ⟨hx, hxs⟩ := List.pairwise_cons.1 h
    -- the first element goes behind those that come before it, and before its equals
    obtain ⟨before, after, hsorted, hrest, hbefore⟩ := List.mergeSort_cons htrans htotal x xs
    have hties := ih hxs
    rw [hrest, List.pairwise_append] at hties
    obtain ⟨hfirst, hlast, hacross⟩ := hties
    rw [hsorted, List.pairwise_append, List.pairwise_cons]
    refine ⟨hfirst, ⟨fun b hb _ => hx b ?_, hlast⟩, fun a ha b hb hle => ?_⟩
    · have hmem : b ∈ xs.mergeSort le := hrest ▸ List.mem_append_right _ hb
      exact List.mem_mergeSort.1 hmem
    · rcases List.mem_cons.1 hb with rfl | hb
      · exact absurd (hbefore a ha) (by simp [hle])
      · exact hacross a ha b hb hle

variable [LinearOrder κ] {key : α → κ}

/-- **Elements are sorted by their keys; those with the same key stay as they were.** -/
theorem pairwise_mergeSort_key (hle : ∀ a b, le a b = true ↔ key a ≤ key b) (h : xs.Pairwise R) :
    (xs.mergeSort le).Pairwise fun a b => key a < key b ∨ key a = key b ∧ R a b := by
  have htrans : ∀ a b c, le a b = true → le b c = true → le a c = true := by
    intro a b c hab hbc
    rw [hle] at hab hbc ⊢
    exact hab.trans hbc
  have htotal : ∀ a b, (le a b || le b a) = true := by
    intro a b
    rw [Bool.or_eq_true, hle, hle]
    exact le_total _ _
  have hsorted := List.pairwise_mergeSort htrans htotal xs
  refine (hsorted.and (pairwise_mergeSort_ties htrans htotal h)).imp fun {a b} hab => ?_
  rcases ((hle a b).1 hab.1).lt_or_eq with hlt | heq
  · exact .inl hlt
  · exact .inr ⟨heq, hab.2 ((hle b a).2 heq.ge)⟩

end Sorting

/-! ## Sections and symbols -/

namespace Catalogue

variable {c c' : Catalogue} {o : Section}

theorem sections_perm (order : Order) (c : Catalogue) :
    (order.sections c).Perm c.sections.values :=
  List.mergeSort_perm _ _

theorem mem_sections (order : Order) : o ∈ order.sections c ↔ o ∈ c.sections.values :=
  List.mem_mergeSort

namespace WellFormed

variable {order : Order}

theorem sections_asDefined (h : c.WellFormed) (horder : order.sectionsByName = false) :
    order.sections c = c.sections.values := by
  have hincreasing := List.pairwise_map.1 h.sections_increasing
  refine List.mergeSort_of_pairwise (hincreasing.imp fun hlt => ?_)
  simpa [horder] using Nat.le_of_lt hlt

/-- **By name, the sections come in the order of the bytes of their names.** -/
theorem sections_byName (h : c.WellFormed) (horder : order.sectionsByName = true) :
    (order.sections c).Pairwise fun a b => a.name < b.name := by
  have hle : ∀ a b : Section, (if order.sectionsByName then Text.le a.name b.name
      else a.order ≤ b.order) = true ↔ a.name ≤ b.name := by
    intro a b
    rw [if_pos horder]
    exact Text.le_iff a.name b.name
  have hnames : c.sections.values.Pairwise fun a b => a.name ≠ b.name :=
    List.pairwise_map.1 h.names_nodup
  refine (pairwise_mergeSort_key hle hnames).imp fun {a b} hab => ?_
  exact hab.resolve_right fun heq => heq.2 heq.1

theorem symbols_perm (h : c.WellFormed) (order : Order) (ho : o ∈ c.sections.values) :
    (order.symbols c o).Perm (c.ownedBy o.name) := by
  rw [← h.symbolsOf_eq ho]
  exact List.mergeSort_perm _ _

theorem symbols_asDefined (h : c.WellFormed) (horder : order.symbolsByName = false)
    (ho : o ∈ c.sections.values) : order.symbols c o = c.ownedBy o.name := by
  rw [← h.symbolsOf_eq ho]
  have hincreasing := List.pairwise_map.1 (h.symbolsOf_increasing ho)
  refine List.mergeSort_of_pairwise (hincreasing.imp fun hlt => ?_)
  simpa [horder] using Nat.le_of_lt hlt

/-- **By name, the symbols come in the order of their commands without capitals, and those that
differ only by capitals as they were defined.** -/
theorem symbols_byName (h : c.WellFormed) (horder : order.symbolsByName = true)
    (ho : o ∈ c.sections.values) :
    (order.symbols c o).Pairwise fun a b =>
      Order.sortKey a < Order.sortKey b ∨
        Order.sortKey a = Order.sortKey b ∧ a.order < b.order := by
  have hle : ∀ a b : Symbol, (if order.symbolsByName then
      Text.le (Order.sortKey a) (Order.sortKey b) else a.order ≤ b.order) = true ↔
        Order.sortKey a ≤ Order.sortKey b := by
    intro a b
    rw [if_pos horder]
    exact Text.le_iff _ _
  exact pairwise_mergeSort_key hle (List.pairwise_map.1 (h.symbolsOf_increasing ho))

theorem mem_names_sections (h : c.WellFormed) (order : Order) {name : Text} :
    name ∈ (order.sections c).map Section.name ↔ name ∈ c.sections.keys := by
  rw [((sections_perm order c).map Section.name).mem_iff, h.names_eq_keys]

/-- What is looked at in the sections is found under their names. -/
theorem map_sections_eq_find? {α : Type} (h : c.WellFormed) (order : Order) (view : Section → α) :
    ((order.sections c).map view).map some =
      ((order.sections c).map Section.name).map fun name => (c.sections.find? name).map view := by
  rw [List.map_map, List.map_map]
  refine List.map_congr_left fun o ho => ?_
  show some (view o) = (c.sections.find? o.name).map view
  rw [h.find?_name ((mem_sections order).1 ho), Option.map_some]

/-- **By name, catalogues with the same sections list them alike**, whatever is looked at. -/
theorem map_sections_eq {α : Type} (h : c.WellFormed) (h' : c'.WellFormed)
    (horder : order.sectionsByName = true) {view : Section → α}
    (hsame : ∀ name, (c.sections.find? name).map view = (c'.sections.find? name).map view) :
    (order.sections c).map view = (order.sections c').map view := by
  have hkeys : ∀ name, name ∈ c.sections.keys ↔ name ∈ c'.sections.keys := by
    intro name
    have hsome := congrArg Option.isSome (hsame name)
    rw [Option.isSome_map, Option.isSome_map, Bool.eq_iff_iff] at hsome
    rwa [OrderedMap.find?_isSome_iff, OrderedMap.find?_isSome_iff] at hsome
  have hnames : (order.sections c).map Section.name = (order.sections c').map Section.name := by
    have hincreasing := List.pairwise_map.2 (h.sections_byName horder)
    have hincreasing' := List.pairwise_map.2 (h'.sections_byName horder)
    refine hincreasing.eq_of_mem_iff hincreasing' fun name => ?_
    rw [h.mem_names_sections, h'.mem_names_sections, hkeys]
  refine (Option.some_injective α).list_map ?_
  rw [h.map_sections_eq_find?, h'.map_sections_eq_find?, hnames]
  exact List.map_congr_left fun name _ => hsame name

end WellFormed

end Catalogue

/-- How a catalogue is listed in an order. -/
structure Order.Arrangement (order : Order) (c : Catalogue) : Prop where
  /-- Each section is listed once. -/
  sections_perm : (order.sections c).Perm c.sections.values
  /-- Unless told otherwise, the sections stay in the order of the catalogue, which is the one of
  their numbers. -/
  sections_asDefined : order.sectionsByName = false → order.sections c = c.sections.values
  numbers_increasing : (c.sections.values.map Section.order).Pairwise (· < ·)
  /-- By name they are in the order of the bytes of their names, no two of which are the same. -/
  sections_byName : order.sectionsByName = true →
    (order.sections c).Pairwise fun a b => Utf8.encode a.name < Utf8.encode b.name
  /-- Then they do not depend on the order in which they were declared: what can be seen of the
  sections under each name says what is seen of the list. -/
  sections_determined : order.sectionsByName = true →
    ∀ (knownTags : List Text) (operations : List Catalogue.Operation) (α : Type)
      (view : Section → α),
      (∀ name, (c.sections.find? name).map view =
        (((Catalogue.new knownTags).run operations).sections.find? name).map view) →
      (order.sections c).map view =
        (order.sections ((Catalogue.new knownTags).run operations)).map view
  /-- A section lists the commands of the symbols that belong to it. -/
  registered : ∀ o ∈ c.sections.values,
    o.symbols = (c.symbols.values.filter (·.owner = o.name)).map fun s => s.command
  /-- Each symbol of a section is listed once. -/
  symbols_perm : ∀ o ∈ c.sections.values,
    (order.symbols c o).Perm (c.symbols.values.filter (·.owner = o.name))
  /-- Unless told otherwise, the symbols come as they were registered, which is the order of their
  numbers. -/
  symbols_asDefined : order.symbolsByName = false → ∀ o ∈ c.sections.values,
    order.symbols c o = c.symbols.values.filter (·.owner = o.name)
  symbolNumbers_increasing : (c.symbols.values.map Symbol.order).Pairwise (· < ·)
  /-- By name they are in the order of the bytes of their commands without capitals; of those that
  differ only by capitals the one that was defined first comes first. -/
  symbols_byName : order.symbolsByName = true → ∀ o ∈ c.sections.values,
    (order.symbols c o).Pairwise fun a b =>
      Utf8.encode (Order.sortKey a) < Utf8.encode (Order.sortKey b) ∨
        Order.sortKey a = Order.sortKey b ∧ a.order < b.order
  /-- Commands are of letters that have one small letter each. -/
  commands : ∀ s ∈ c.symbols.values, IsCommand s.command

namespace Catalogue

theorem WellFormed.arrangement (h : c.WellFormed)
    (hcommands : ∀ s ∈ c.symbols.values, IsCommand s.command) (order : Order) :
    order.Arrangement c where
  sections_perm := Catalogue.sections_perm order c
  sections_asDefined := h.sections_asDefined
  numbers_increasing := h.sections_increasing
  sections_byName horder := (h.sections_byName horder).imp Utf8.encode_lt_encode
  sections_determined horder knownTags operations _ _ hsame :=
    h.map_sections_eq ((wellFormed_new knownTags).run operations) horder hsame
  registered := h.members_eq
  symbols_perm _ ho := h.symbols_perm order ho
  symbols_asDefined horder _ ho := h.symbols_asDefined horder ho
  symbolNumbers_increasing := h.symbols_increasing
  symbols_byName horder _ ho :=
    (h.symbols_byName horder ho).imp (Or.imp_left Utf8.encode_lt_encode)
  commands := hcommands

/-- **How a catalogue is listed after any run.** -/
theorem arrangement_run (knownTags : List Text) (operations : List Operation) (order : Order) :
    order.Arrangement ((new knownTags).run operations) := by
  refine ((wellFormed_new knownTags).run operations).arrangement (fun s hs => ?_) order
  exact ((oneLine_run knownTags operations).symbols s hs).command

end Catalogue

end TexSymbols
