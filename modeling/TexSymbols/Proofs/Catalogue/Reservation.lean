import TexSymbols.Proofs.Catalogue.Comparison
import TexSymbols.Proofs.Catalogue.Extension
import TexSymbols.Proofs.Catalogue.Sequence

/-!
# Reservations are transparent

A name is declared in one of two ways, as a new section or by completing a reservation.  A run with
reservations is compared with the same run without them.

* `Section.Covered` — what stands under a name in the two runs; `Progress.Covers` — the invariant.
* `steady_covers` — no reader sees the difference; `Covers.reserve` — a reservation in one of the
  runs keeps it.
* `Catalogue.Transparent` — what reservations leave as it is; `Catalogue.transparent` — they do in
  every run.
-/

namespace TexSymbols

open ItemGroup

/-- The section without its place in the order of definition. -/
def Section.unnumbered (o : Section) : Section := { o with order := 0 }

/-- The symbol without its place in the order of definition. -/
def Symbol.unnumbered (s : Symbol) : Symbol := { s with order := 0 }

/-- A section of which nothing but the name is known. -/
def Section.placeholder (name : Text) (order : Nat) : Section := ⟨name, order, none, [], []⟩

/-- What stands under a name without reservations, and what with them. -/
inductive Section.Covered (name : Text) : Option Section → Option Section → Prop
  | missing : Covered name none none
  | reserved (order : Nat) : Covered name none (some (placeholder name order))
  | both {o o' : Section} : o'.unnumbered = o.unnumbered → Covered name (some o) (some o')

namespace Section.Covered

variable {name : Text} {o o' : Option Section}

theorem refl (name : Text) (o : Option Section) : Covered name o o := by
  cases o with
  | none => exact .missing
  | some o => exact .both rfl

theorem declaration_eq (h : Covered name o o') : o'.bind declaration = o.bind declaration := by
  cases h with
  | missing => rfl
  | reserved => rfl
  | both heq =>
    have hdeclaration := congrArg declaration heq
    exact hdeclaration

/-- The sections that are declared are the same but for their numbers. -/
theorem declared_eq (h : Covered name o o') :
    (o'.filter (!·.isReserved)).map unnumbered = (o.filter (!·.isReserved)).map unnumbered := by
  cases h with
  | missing => rfl
  | reserved => rfl
  | @both o o' heq =>
    have hreserved : o'.isReserved = o.isReserved := by
      have hdeclaration := congrArg declaration heq
      exact congrArg Option.isNone hdeclaration
    rw [Option.filter_some, Option.filter_some, hreserved]
    split
    · exact congrArg some heq
    · rfl

/-- A change of a section that is there, whatever its number. -/
theorem map (h : Covered name o o') (ho : o.isSome) {f : Section → Section}
    (hf : ∀ o, (f o).unnumbered = f o.unnumbered) : Covered name (o.map f) (o'.map f) := by
  cases h with
  | missing => cases ho
  | reserved => cases ho
  | both heq => exact .both (by rw [hf, hf, heq])

/-- What is declared is a new section, a completed one, or one that both runs had. -/
theorem declared (h : Covered name o o') (d : Declaration) (order order' : Nat) :
    Covered name (some { o.getD (placeholder name order) with declaration := some d })
      (some { o'.getD (placeholder name order') with declaration := some d }) := by
  cases h with
  | missing => exact .both rfl
  | reserved => exact .both rfl
  | both heq => exact .both (congrArg (fun o => { o with declaration := some d }) heq)

/-- What is reserved was in neither run. -/
theorem reserve (h : Covered name o none) (order : Nat) :
    Covered name o (some (placeholder name order)) := by
  cases h
  exact .reserved order

end Section.Covered

namespace Catalogue

variable {c c' : Catalogue} {name other : Text} {d : Declaration}

/-- A declaration gives the same section whether the name was reserved or not, apart from its
number. -/
theorem find?_declare (h : c.declare name d = .ok c') :
    c'.sections.find? other = if other = name then
      some { (c.sections.find? name).getD (.placeholder name c.nextOrder) with
        declaration := some d }
    else c.sections.find? other := by
  obtain ⟨-, ⟨hnew, rfl⟩ | ⟨⟨o, ho, -⟩, rfl⟩⟩ := declare_eq_ok h
  · rw [OrderedMap.find?_eq_none.2 hnew]
    exact OrderedMap.find?_insert ..
  · rw [complete, OrderedMap.find?_modify, ho]
    split
    · rename_i heq
      rw [heq, ho]
      rfl
    · rfl

end Catalogue

namespace Progress

variable {p p' : Progress} {c c' : Catalogue}

/-- The progress `p'` comes from the same readings as `p`, but with reservations between them. -/
structure Covers (p p' : Progress) : Prop where
  current_eq : p'.current = p.current
  knownTags_eq : p'.catalogue.knownTags = p.catalogue.knownTags
  warnings_eq : p'.catalogue.warnings = p.catalogue.warnings
  symbols_eq : p'.catalogue.symbols.mapValues (fun _ => Symbol.unnumbered) =
    p.catalogue.symbols.mapValues fun _ => Symbol.unnumbered
  covered : ∀ name, Section.Covered name (p.catalogue.sections.find? name)
    (p'.catalogue.sections.find? name)
  /-- Symbols are added to sections that are there in both. -/
  current_mem : ∀ owner ∈ p.current, owner ∈ p.catalogue.sections.keys

theorem Covers.refl (c : Catalogue) : Covers ⟨c, none⟩ ⟨c, none⟩ :=
  ⟨rfl, rfl, rfl, rfl, fun name => .refl name _, fun _ h => by cases h⟩

theorem Covers.declaration?_eq (h : p.Covers p') (name : Text) :
    p'.catalogue.declaration? name = p.catalogue.declaration? name :=
  (h.covered name).declaration_eq

theorem Covers.find?_symbol (h : p.Covers p') (command : Text) :
    (p'.catalogue.symbols.find? command).map Symbol.unnumbered =
      (p.catalogue.symbols.find? command).map Symbol.unnumbered := by
  rw [← OrderedMap.find?_mapValues (fun _ => Symbol.unnumbered), h.symbols_eq,
    OrderedMap.find?_mapValues]

theorem Covers.declare (h : p.Covers p') {name : Text} {d : Declaration}
    (hc : p.catalogue.declare name d = .ok c) (hc' : p'.catalogue.declare name d = .ok c') :
    Covers ⟨c, some name⟩ ⟨c', some name⟩ := by
  obtain ⟨hsymbols, htags, hwarnings⟩ := Catalogue.declare_frame hc
  obtain ⟨hsymbols', htags', hwarnings'⟩ := Catalogue.declare_frame hc'
  refine ⟨rfl, ?_, ?_, ?_, fun other => ?_, fun owner howner => ?_⟩
  · rw [htags, htags', h.knownTags_eq]
  · rw [hwarnings, hwarnings', h.warnings_eq]
  · rw [hsymbols, hsymbols', h.symbols_eq]
  · rw [Catalogue.find?_declare hc, Catalogue.find?_declare hc']
    by_cases hother : other = name
    · rw [if_pos hother, if_pos hother, hother]
      exact (h.covered name).declared d ..
    · rw [if_neg hother, if_neg hother]
      exact h.covered other
  · obtain rfl := Option.some.inj (Option.mem_def.1 howner)
    apply OrderedMap.find?_isSome_iff.1
    rw [Catalogue.find?_declare hc, if_pos rfl]
    rfl

/-- The symbols of both runs have the same attributes. -/
theorem Covers.symbol_eq (h : p.Covers p') (owner : Text) (d : Definition) (l : Location)
    (own : Attributes) (nomenclature : Option NomenclatureEntry) :
    (p'.symbol owner d l own nomenclature).unnumbered =
      (p.symbol owner d l own nomenclature).unnumbered := by
  have hinherited : Reader.inherited p'.catalogue owner = Reader.inherited p.catalogue owner := by
    rw [inherited_eq, inherited_eq, Catalogue.declaredAttributes, Catalogue.declaredAttributes,
      h.declaration?_eq]
  rw [symbol, symbol, hinherited]
  rfl

theorem Covers.register (h : p.Covers p') {owner : Text} (howner : p.current = some owner)
    (d : Definition) (l : Location) (own : Attributes) (nomenclature : Option NomenclatureEntry) :
    Covers ⟨p.catalogue.register (p.symbol owner d l own nomenclature), p.current⟩
      ⟨p'.catalogue.register (p'.symbol owner d l own nomenclature), p'.current⟩ := by
  refine ⟨h.current_eq, h.knownTags_eq, h.warnings_eq, ?_, fun name => ?_, fun name hname => ?_⟩
  · simp only [Catalogue.register, OrderedMap.mapValues_insert, h.symbols_eq, h.symbol_eq]
    rfl
  · simp only [Catalogue.register, OrderedMap.find?_modify, symbol]
    by_cases hname : name = owner
    · have hthere := OrderedMap.find?_isSome_iff.2 (h.current_mem owner howner)
      rw [if_pos hname, if_pos hname]
      exact (h.covered name).map (hname ▸ hthere) fun _ => rfl
    · rw [if_neg hname, if_neg hname]
      exact h.covered name
  · rw [Catalogue.register, OrderedMap.keys_modify]
    exact h.current_mem name hname

end Progress

/-- **No reader sees whether names were reserved.** -/
theorem steady_covers : Steady Progress.Covers where
  current_eq h := h.current_eq
  declaration?_eq h := h.declaration?_eq
  symbol_loc_eq h command := by
    have hsymbol := congrArg (Option.map Symbol.loc) (h.find?_symbol command)
    rwa [Option.map_map, Option.map_map] at hsymbol
  warn h ws := { h with warnings_eq := congrArg (· ++ ws) h.warnings_eq }
  run h run := by
    rw [h.knownTags_eq]
    exact { h with warnings_eq := congrArg (· ++ runWarnings _ run) h.warnings_eq }
  declare h hc hc' := h.declare hc hc'
  register h howner _ _ := h.register howner ..
  finish h := { h with current_eq := rfl, current_mem := fun _ hname => by cases hname }

/-! ## Reservations -/

/-- A reservation in the second run is covered: either the name is known there, or it is not known
in the first one. -/
theorem Progress.Covers.reserve {c c' : Catalogue} (h : Progress.Covers ⟨c, none⟩ ⟨c', none⟩)
    (name : Text) : Progress.Covers ⟨c, none⟩ ⟨c'.reserve name, none⟩ := by
  rw [Catalogue.reserve]
  split
  · exact h
  · rename_i hname
    have hnew : c'.sections.find? name = none :=
      OrderedMap.find?_eq_none.2 (by simpa using hname)
    refine { h with covered := fun other => ?_ }
    have hcovered := h.covered other
    simp only [Catalogue.addSection, OrderedMap.find?_insert]
    by_cases hother : other = name
    · rw [hother, hnew] at hcovered
      rw [if_pos hother, hother]
      exact hcovered.reserve c'.nextOrder
    · rw [if_neg hother]
      exact hcovered

namespace Catalogue

variable {c c' : Catalogue} {operations : List Operation}

theorem runsAlike_covers (hops : ∀ op ∈ operations, op.links = false) (c : Catalogue) :
    RunsAlike Progress.Covers c c (operations.filter (!·.reserves)) operations := by
  refine steady_covers.runsAlike (fun _ _ _ => rfl) (fun {c c' name} _ hc => ?_)
    (fun hmem => ?_) (.refl c)
  · exact hc.reserve name
  · cases hops _ hmem

/-- What reservations of any names at any points of a run leave as it is, and what becomes of
them. -/
structure Transparent (c : Catalogue) (operations : List Operation) : Prop where
  /-- The readings give the same events and the same errors. -/
  answers_eq : c.answers operations = c.answers (operations.filter (!·.reserves))
  warnings_eq : (c.run operations).warnings =
    (c.run (operations.filter (!·.reserves))).warnings
  /-- The symbols are the same in the same order, but for their numbers. -/
  symbols_eq : (c.run operations).symbols.mapValues (fun _ => Symbol.unnumbered) =
    (c.run (operations.filter (!·.reserves))).symbols.mapValues fun _ => Symbol.unnumbered
  /-- So are, under every name, the sections that are declared. -/
  declared_eq : ∀ name,
    (((c.run operations).sections.find? name).filter (!·.isReserved)).map Section.unnumbered =
      (((c.run (operations.filter (!·.reserves))).sections.find? name).filter
        (!·.isReserved)).map Section.unnumbered
  /-- A reservation keeps the place and the number that it got, whatever becomes of it. -/
  reserved_kept : ∀ before name after, operations = before ++ .reserve name :: after →
    name ∉ (c.run before).sections.keys → ∃ o,
      (c.run operations).sections.entries[(c.run before).sections.size]? = some (name, o) ∧
        o.order = (c.run before).nextOrder

/-- A new reservation stands at the end, with the next number, and stays there. -/
theorem exists_reserved_run {before after : List Operation} {name : Text}
    (hname : name ∉ (c.run before).sections.keys) : ∃ o,
      (c.run (before ++ .reserve name :: after)).sections.entries[(c.run before).sections.size]? =
        some (name, o) ∧ o.order = (c.run before).nextOrder := by
  have hreserve : (c.run before).reserve name = (c.run before).addSection name none := by
    rw [reserve, if_neg (by simpa using hname)]
  have hentry : ((c.run before).reserve name).sections.entries[(c.run before).sections.size]? =
      some (name, .placeholder name (c.run before).nextOrder) := by
    rw [hreserve, addSection, OrderedMap.entries_insert_of_notMem hname]
    exact List.getElem?_concat_length ..
  have hextends := extends_of_changes (changes_run after ((c.run before).reserve name))
  obtain ⟨o, ho, hkeeps⟩ := hextends.sections_extend _ _ _ hentry
  refine ⟨o, ?_, hkeeps.order_eq⟩
  rw [run_append]
  exact ho

/-- **Reservations between readings are transparent.** -/
theorem transparent (c : Catalogue) (hops : ∀ op ∈ operations, op.links = false) :
    c.Transparent operations := by
  obtain ⟨hanswers, -, hcovers⟩ := runsAlike_covers hops c
  refine ⟨hanswers, hcovers.warnings_eq, hcovers.symbols_eq, fun name => ?_, ?_⟩
  · exact (hcovers.covered name).declared_eq
  · rintro before name after rfl hname
    exact exists_reserved_run hname

/-- A text that declares a section with two symbols, the second one of them twice. -/
def declaresOnce : Text :=
  "%:section: s: S\n%:sort: a\n" ++ "\\newcommand\x7b\\a\x7d\x7b1\x7d\n" ++
    "\\newcommand\x7b\\b\x7d\x7b2\x7d\n\\newcommand\x7b\\b\x7d\x7b3\x7d\n"

/-- One name is reserved before it is declared, the other one is never declared. -/
def reservesTwice : List Operation :=
  [.reserve "s", .read "f" declaresOnce (some 2), .reserve "t", .read "g" declaresOnce none]

theorem transparent_reservesTwice :
    (∀ op ∈ reservesTwice, op.links = false) ∧ (new Tag.known).Transparent reservesTwice :=
  ⟨by decide, transparent (new Tag.known) (by decide)⟩

end Catalogue

end TexSymbols
