import TexSymbols.Proofs.Catalogue.WellFormed
import TexSymbols.Proofs.Reader.Pulls

/-!
# Catalogues after any run

* `Catalogue.Operation`, `Catalogue.run` — reading a text with any number of pulls, reserving a
  name, linking, in any order and number.
* `Progress.Sound` — the invariant of reading: the catalogue is well-formed, and the current section
  is declared.
* `Catalogue.Consistent` — what a user of a catalogue relies on; `Catalogue.consistent_run` — it
  holds after every run.
-/

namespace TexSymbols

/-! ## Reading keeps a catalogue well-formed -/

namespace Progress

variable {p p' : Progress} {g : ItemGroup}

/-- The catalogue is well-formed and the section that definitions belong to is declared. -/
structure Sound (p : Progress) : Prop where
  wellFormed : p.catalogue.WellFormed
  current_declared : ∀ name ∈ p.current, p.catalogue.Declares name

theorem Sound.warn (h : p.Sound) (ws : List Warning) : (p.warn ws).Sound :=
  ⟨h.wellFormed.warn ws, h.current_declared⟩

/-- Every way in which a group is read keeps the invariant. -/
theorem Sound.step (h : p.Sound) (hs : g.Step p p') : p'.Sound := by
  cases hs with
  | passthrough => exact h
  | floating => exact h.warn _
  | @declared b description c _ _ _ hdec =>
    refine ⟨(h.warn _).wellFormed.declare hdec, ?_⟩
    intro name hname
    obtain rfl := Option.some.inj (Option.mem_def.1 hname)
    rw [Catalogue.Declares, Catalogue.declaration?_declare hdec, if_pos rfl]
    rfl
  | @defined d loc owner nomenclature _ howner _ hnew =>
    -- the section of the symbol is there, so it is added to a section and not lost
    have hdeclared := h.current_declared owner howner
    refine ⟨((h.warn _).warn _).wellFormed.register ?_ hdeclared rfl, ?_⟩
    · exact OrderedMap.find?_eq_none.1 hnew
    · intro name hname
      have hold := h.current_declared name hname
      rw [Catalogue.Declares] at hold ⊢
      exact (congrArg Option.isSome (Catalogue.declaration?_register _)).trans hold

/-- A failing group keeps it too. -/
theorem Sound.failed {e : ReadError} (h : p.Sound) (hg : g.read p = (some e, p')) : p'.Sound := by
  obtain ⟨-, rfl | rfl⟩ := ItemGroup.read_eq_some hg
  · exact h
  · exact h.warn _

theorem Sound.reads {groups : List ItemGroup} (h : p.Sound) (hr : Reads p groups p') : p'.Sound :=
  hr.invariant (fun _ _ _ hg hp => hp.step (ItemGroup.step_of_read hg)) h

end Progress

namespace Catalogue

variable {c : Catalogue}

/-- **Reading a text, with any number of pulls, leaves a well-formed catalogue**, also when it ends
in an error. -/
theorem WellFormed.read (h : c.WellFormed) (file text : Text) (limit : Option Nat) :
    (c.read file text limit).reader.catalogue.WellFormed := by
  have hstart : Progress.Sound ⟨c, none⟩ := ⟨h, fun name hname => by cases hname⟩
  unfold Catalogue.read
  cases Reader.taken_take (limit.getD _) (r := Reader.start c (Token.stream file text)) rfl with
  | stopped _ hreads => exact (hstart.reads hreads).wellFormed
  | failed _ hreads _ hg => exact ((hstart.reads hreads).failed hg).wellFormed

/-! ## Runs -/

/-- What a run can do with a catalogue. -/
inductive Operation
  /-- Read a text as a file of that name, with at most `pulls` pulls if there is a limit. -/
  | read (file text : Text) (pulls : Option Nat)
  | reserve (name : Text)
  | link

/-- The catalogue after an operation. -/
def apply (c : Catalogue) : Operation → Catalogue
  | .read file text pulls => (c.read file text pulls).reader.catalogue
  | .reserve name => c.reserve name
  | .link => c.link

/-- The catalogue after operations. -/
def run (c : Catalogue) (operations : List Operation) : Catalogue := operations.foldl apply c

theorem WellFormed.apply (h : c.WellFormed) (op : Operation) : (c.apply op).WellFormed := by
  cases op with
  | read file text pulls => exact h.read file text pulls
  | reserve name => exact h.reserve name
  | link => exact h.link

theorem WellFormed.run (h : c.WellFormed) (operations : List Operation) :
    (c.run operations).WellFormed := by
  induction operations generalizing c with
  | nil => exact h
  | cons op operations ih => exact ih (h.apply op)

/-- What holds of a catalogue after every run. -/
structure Consistent (c : Catalogue) : Prop where
  /-- Sections stand under their names, symbols under their commands. -/
  section_named : ∀ name o, c.sections.find? name = some o → o.name = name
  symbol_named : ∀ command s, c.symbols.find? command = some s → s.command = command
  /-- Every symbol belongs to a section that is there and not only reserved. -/
  owner_declared : ∀ s ∈ c.symbols.values, ∃ o, c.sections.find? s.owner = some o ∧
    o.isReserved = false
  /-- A section lists the commands of exactly the symbols that belong to it, each once. -/
  mem_symbols_iff : ∀ o ∈ c.sections.values, ∀ command,
    command ∈ o.symbols ↔ ∃ s ∈ c.symbols.values, s.command = command ∧ s.owner = o.name
  symbols_nodup : ∀ o ∈ c.sections.values, o.symbols.Nodup
  /-- It lists them in the order of their numbers, and finds them all. -/
  symbolsOf_eq : ∀ o ∈ c.sections.values, (c.symbolsOf o).map (fun s => s.command) = o.symbols
  symbolsOf_increasing :
    ∀ o ∈ c.sections.values, ((c.symbolsOf o).map Symbol.order).Pairwise (· < ·)
  /-- Sections and symbols together use each number below their count once. -/
  orders_perm : c.orders.Perm (List.range (c.sections.size + c.symbols.size))
  sections_increasing : (c.sections.values.map Section.order).Pairwise (· < ·)
  symbols_increasing : (c.symbols.values.map Symbol.order).Pairwise (· < ·)
  section_lt_symbol : ∀ o ∈ c.sections.values, ∀ s ∈ c.symbols.values, s.owner = o.name →
    o.order < s.order

namespace WellFormed

theorem names_eq_keys (h : c.WellFormed) :
    c.sections.values.map Section.name = c.sections.keys := by
  rw [OrderedMap.values, OrderedMap.keys, List.map_map]
  exact List.map_congr_left h.section_named

theorem names_nodup (h : c.WellFormed) : (c.sections.values.map Section.name).Nodup := by
  rw [h.names_eq_keys]
  exact c.sections.nodup_keys

theorem commands_nodup (h : c.WellFormed) : (c.symbols.values.map fun s => s.command).Nodup := by
  have hkeys : (c.symbols.values.map fun s => s.command) = c.symbols.keys := by
    rw [OrderedMap.values, OrderedMap.keys, List.map_map]
    exact List.map_congr_left h.symbol_named
  rw [hkeys]
  exact c.symbols.nodup_keys

theorem find?_command (h : c.WellFormed) {s : Symbol} (hs : s ∈ c.symbols.values) :
    c.symbols.find? s.command = some s := by
  obtain ⟨k, hk⟩ := OrderedMap.mem_values.1 hs
  have hcommand : s.command = k := h.symbol_named _ hk
  rw [hcommand]
  exact OrderedMap.find?_eq_some_iff.2 hk

/-- The symbols that a section lists are those that say they belong to it. -/
theorem symbolsOf_eq (h : c.WellFormed) {o : Section} (ho : o ∈ c.sections.values) :
    c.symbolsOf o = c.ownedBy o.name := by
  have hfind : ∀ s ∈ c.ownedBy o.name, c.symbols.find? s.command = some s :=
    fun s hs => h.find?_command (List.mem_of_mem_filter hs)
  rw [symbolsOf, h.members_eq o ho, membersOf, List.filterMap_map]
  calc (c.ownedBy o.name).filterMap (c.symbols.find? ∘ fun s => s.command)
      = (c.ownedBy o.name).filterMap some := List.filterMap_congr hfind
    _ = c.ownedBy o.name := List.filterMap_some

theorem consistent (h : c.WellFormed) : c.Consistent where
  section_named name o ho := h.section_named _ (OrderedMap.find?_eq_some_iff.1 ho)
  symbol_named command s hs := h.symbol_named _ (OrderedMap.find?_eq_some_iff.1 hs)
  owner_declared s hs := declares_iff.1 (h.owner_declared s hs)
  mem_symbols_iff o ho command := by
    rw [h.members_eq o ho, membersOf, ownedBy]
    simp [and_assoc, and_comm]
  symbols_nodup o ho := by
    rw [h.members_eq o ho]
    exact h.commands_nodup.sublist (List.filter_sublist.map _)
  symbolsOf_eq o ho := by
    rw [h.symbolsOf_eq ho, h.members_eq o ho]
    rfl
  symbolsOf_increasing o ho := by
    rw [h.symbolsOf_eq ho]
    exact h.symbols_increasing.sublist (List.filter_sublist.map _)
  orders_perm := h.nextOrder_eq ▸ h.orders_perm
  sections_increasing := h.sections_increasing
  symbols_increasing := h.symbols_increasing
  section_lt_symbol := h.section_lt_symbol

end WellFormed

/-- **Every run leaves names, members and numbers in step.** -/
theorem consistent_run (knownTags : List Text) (operations : List Operation) :
    ((new knownTags).run operations).Consistent :=
  ((wellFormed_new knownTags).run operations).consistent

end Catalogue

end TexSymbols
