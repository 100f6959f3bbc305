import Mathlib.Logic.Function.Iterate
import TexSymbols.Proofs.Catalogue.Comparison
import TexSymbols.Proofs.Catalogue.Hierarchy

/-!
# The forest of sections

* `Section.isTopLevel_eq` — a section is at the top level if there is no slash in its name.
* `length_lt_of_parentName` — the name of a parent is shorter; `parents_end` — so following parents
  ends.
* `Catalogue.unlinked` — a catalogue without the lists that linking makes; `steady_sameUnlinked` —
  no reader sees them, `unlinked_run` — and no operation of a run.
* `Catalogue.FormsForest` — what linking makes of a catalogue; `Catalogue.formsForest_run` — it does
  after every run.
-/

namespace TexSymbols

/-! ## Names of parents -/

theorem Section.isTopLevel_eq (o : Section) : o.isTopLevel = decide ('/' ∉ o.name) := by
  rw [Bool.eq_iff_iff, decide_eq_true_iff, ← Text.splitLast_eq_none_iff, isTopLevel, parent,
    parentName, Option.isNone_iff_eq_none, Option.map_eq_none_iff]

/-- **The name of a parent is shorter.** -/
theorem length_lt_of_parentName {name above : Text} (h : parentName name = some above) :
    above.length < name.length := by
  obtain ⟨⟨a, b⟩, hsplit, rfl⟩ := Option.map_eq_some_iff.1 h
  have htrim := Text.length_trim_le a
  rw [Text.splitLast_eq_some hsplit, List.length_append, List.length_cons]
  show (Text.trim a).length < _
  omega

/-- Following parents ends. -/
theorem parents_end (name : Option Text) :
    ∃ n, (fun name => Option.bind name parentName)^[n] name = none := by
  cases name with
  | none => exact ⟨0, rfl⟩
  | some name =>
    induction hlength : name.length using Nat.strongRecOn generalizing name with
    | ind k ih =>
      cases hparent : parentName name with
      | none => exact ⟨1, hparent⟩
      | some above =>
        obtain ⟨n, hend⟩ := ih _ (hlength ▸ length_lt_of_parentName hparent) above rfl
        refine ⟨n + 1, ?_⟩
        rw [Function.iterate_succ_apply, Option.bind_some, hparent, hend]

/-! ## Catalogues without lists -/

/-- The section without the list of the sections below it. -/
def Section.unlinked (o : Section) : Section := { o with subs := [] }

/-- The catalogue without these lists. -/
def Catalogue.unlinked (c : Catalogue) : Catalogue :=
  { c with sections := c.sections.mapValues fun _ o => o.unlinked }

/-- Two progresses that differ in these lists only. -/
structure Progress.SameUnlinked (p p' : Progress) : Prop where
  current_eq : p'.current = p.current
  unlinked_eq : p'.catalogue.unlinked = p.catalogue.unlinked

namespace Catalogue

variable {c c' : Catalogue} {name : Text}

theorem find?_unlinked (c : Catalogue) (name : Text) :
    c.unlinked.sections.find? name = (c.sections.find? name).map Section.unlinked :=
  OrderedMap.find?_mapValues ..

theorem unlinked_addSection (c : Catalogue) (name : Text) (d : Option Declaration) :
    (c.addSection name d).unlinked = c.unlinked.addSection name d := by
  simp only [addSection, unlinked, OrderedMap.mapValues_insert]
  rfl

theorem unlinked_reserve (c : Catalogue) (name : Text) :
    (c.reserve name).unlinked = c.unlinked.reserve name := by
  have hkeys : c.unlinked.sections.keys = c.sections.keys := OrderedMap.keys_mapValues ..
  by_cases hname : c.sections.contains name = true
  · have hname' : c.unlinked.sections.contains name = true := by
      rwa [OrderedMap.contains, hkeys]
    rw [reserve, reserve, if_pos hname, if_pos hname']
  · have hname' : ¬ c.unlinked.sections.contains name = true := by
      rwa [OrderedMap.contains, hkeys]
    rw [reserve, reserve, if_neg hname, if_neg hname', unlinked_addSection]

theorem unlinked_complete (c : Catalogue) (name : Text) (d : Declaration) :
    (c.complete name d).unlinked = c.unlinked.complete name d := by
  have hsections := OrderedMap.mapValues_modify (f := fun _ => Section.unlinked) (k := name)
    (g := fun o => { o with declaration := some d })
    (h := fun o => { o with declaration := some d }) (fun _ => rfl) c.sections
  rw [complete, complete, unlinked, unlinked, hsections]

/-- A declaration does not depend on the lists. -/
theorem declare_unlinked (c : Catalogue) (name : Text) (d : Declaration) :
    c.unlinked.declare name d = (c.declare name d).map unlinked := by
  cases hfind : c.sections.find? name with
  | none =>
    have hnew := OrderedMap.find?_eq_none.1 hfind
    have hnew' : name ∉ c.unlinked.sections.keys :=
      OrderedMap.find?_eq_none.1 (by rw [find?_unlinked, hfind]; rfl)
    rw [declare_of_notMem hnew, declare_of_notMem hnew', Except.map, unlinked_addSection]
  | some o =>
    have hfind' : c.unlinked.sections.find? name = some o.unlinked := by
      rw [find?_unlinked, hfind]
      rfl
    cases hdecl : o.declaration with
    | none =>
      rw [declare_of_reserved hfind hdecl, declare_of_reserved hfind' hdecl, Except.map,
        unlinked_complete]
    | some earlier =>
      have hknown : c.declaration? name = some earlier := by rw [declaration?, hfind]; exact hdecl
      have hknown' : c.unlinked.declaration? name = some earlier := by
        rw [declaration?, hfind']
        exact hdecl
      rw [declare_of_declared hknown, declare_of_declared hknown', Except.map]

theorem unlinked_register (c : Catalogue) (s : Symbol) :
    (c.register s).unlinked = c.unlinked.register s := by
  have hsections := OrderedMap.mapValues_modify (f := fun _ => Section.unlinked) (k := s.owner)
    (g := fun o => { o with symbols := o.symbols ++ [s.command] })
    (h := fun o => { o with symbols := o.symbols ++ [s.command] }) (fun _ => rfl) c.sections
  rw [register, register, unlinked, unlinked, hsections]

theorem inherited_unlinked (c : Catalogue) (name : Text) :
    Reader.inherited c.unlinked name = Reader.inherited c name := by
  rw [Reader.inherited, Reader.inherited, find?_unlinked]
  cases c.sections.find? name <;> rfl

theorem declaration?_unlinked (c : Catalogue) (name : Text) :
    c.unlinked.declaration? name = c.declaration? name := by
  rw [declaration?, declaration?, find?_unlinked]
  cases c.sections.find? name <;> rfl

end Catalogue

/-- **No reader sees the lists.** -/
theorem steady_sameUnlinked : Steady Progress.SameUnlinked where
  current_eq h := h.current_eq
  declaration?_eq h name := by
    rw [← Catalogue.declaration?_unlinked, h.unlinked_eq, Catalogue.declaration?_unlinked]
  symbol_loc_eq h command := by
    have hsymbols := congrArg Catalogue.symbols h.unlinked_eq
    exact congrArg (fun symbols => (symbols.find? command).map Symbol.loc) hsymbols
  warn h ws := ⟨h.current_eq, congrArg (·.warn ws) h.unlinked_eq⟩
  run {p p'} h run := by
    have htags := congrArg Catalogue.knownTags h.unlinked_eq
    refine ⟨h.current_eq, ?_⟩
    rw [show p'.catalogue.knownTags = p.catalogue.knownTags from htags]
    exact congrArg (·.warn (runWarnings p.catalogue.knownTags run)) h.unlinked_eq
  declare {p p' name d c c'} h hc hc' := by
    have hsame := congrArg (·.declare name d) h.unlinked_eq
    simp only [Catalogue.declare_unlinked, hc, hc', Except.map, Except.ok.injEq] at hsame
    exact ⟨rfl, hsame⟩
  register {p p' owner l d own nomenclature} h _ _ _ := by
    have horder := congrArg Catalogue.nextOrder h.unlinked_eq
    have hsymbol : p'.symbol owner d l own nomenclature = p.symbol owner d l own nomenclature := by
      rw [Progress.symbol, Progress.symbol, ← Catalogue.inherited_unlinked, h.unlinked_eq,
        Catalogue.inherited_unlinked,
        show p'.catalogue.nextOrder = p.catalogue.nextOrder from horder]
    refine ⟨h.current_eq, ?_⟩
    rw [hsymbol, Catalogue.unlinked_register, Catalogue.unlinked_register, h.unlinked_eq]
  finish h := ⟨rfl, h.unlinked_eq⟩

namespace Catalogue

variable {c c' : Catalogue} {name : Text}

/-! ## Linking -/

/-- Only names matter for the children of a section. -/
theorem childrenOf_eq (sections : List Section) (name : Text) :
    childrenOf sections name =
      (sections.map Section.name).filter fun child => parentName child = some name := by
  rw [childrenOf, List.filter_map]
  rfl

theorem names_unlinked (c : Catalogue) :
    c.unlinked.sections.values.map Section.name = c.sections.values.map Section.name := by
  rw [unlinked, OrderedMap.values_map_mapValues]
  exact fun _ _ => rfl

theorem names_link (c : Catalogue) :
    c.link.sections.values.map Section.name = c.sections.values.map Section.name := by
  rw [link, OrderedMap.values_map_mapValues]
  exact fun _ _ => rfl

/-- Linking does not depend on earlier lists. -/
theorem link_unlinked (c : Catalogue) : c.unlinked.link = c.link := by
  have hchildren : childrenOf c.unlinked.sections.values = childrenOf c.sections.values := by
    funext name
    rw [childrenOf_eq, childrenOf_eq, names_unlinked]
  rw [link, link, hchildren, unlinked]
  simp only [OrderedMap.mapValues_mapValues]
  rfl

/-- Linking changes nothing but the lists. -/
theorem unlinked_link (c : Catalogue) : c.link.unlinked = c.unlinked := by
  rw [link, unlinked, OrderedMap.mapValues_mapValues]
  rfl

theorem link_eq_of_unlinked_eq (h : c'.unlinked = c.unlinked) : c'.link = c.link := by
  rw [← link_unlinked c', h, link_unlinked]

/-! ## Runs -/

/-- But for the lists, linking can be left out of a run. -/
theorem unlinked_run (h : c'.unlinked = c.unlinked) (operations : List Operation) :
    (c'.run operations).unlinked = (c.run (operations.filter (!·.links))).unlinked := by
  have hstart : Progress.SameUnlinked ⟨c, none⟩ ⟨c', none⟩ := ⟨rfl, h⟩
  refine (steady_sameUnlinked.runsAlike (fun _ _ _ => rfl) (fun {c c' name} _ hc => ?_)
    (fun {c c'} _ hc => ?_) hstart).progress.unlinked_eq
  · refine ⟨rfl, ?_⟩
    have hreserve := congrArg (·.reserve name) hc.unlinked_eq
    simp only [← unlinked_reserve] at hreserve
    exact hreserve
  · exact ⟨rfl, (unlinked_link c').trans hc.unlinked_eq⟩

/-! ## Forests -/

/-- The section `above` lists `name` as a section directly below it. -/
def Lists (c : Catalogue) (above name : Text) : Prop :=
  ∃ o ∈ c.sections.values, o.name = above ∧ name ∈ o.subs

/-- What linking makes of a catalogue. -/
structure FormsForest (c : Catalogue) : Prop where
  /-- A section lists the sections whose parent it is, in the order of the catalogue. -/
  subs_eq : ∀ o ∈ c.link.sections.values, o.subs =
    (c.link.sections.values.filter fun s => s.parent = some o.name).map Section.name
  subs_nodup : ∀ o ∈ c.link.sections.values, o.subs.Nodup
  /-- A section whose parent is there is listed by one section, and any other section by none. -/
  listed_once : ∀ s ∈ c.link.sections.values, ∀ above ∈ c.link.sections.keys,
    s.parent = some above → ∃! o, o ∈ c.link.sections.values ∧ s.name ∈ o.subs
  not_listed : ∀ s ∈ c.link.sections.values, (∀ above ∈ s.parent, above ∉ c.link.sections.keys) →
    ∀ o ∈ c.link.sections.values, s.name ∉ o.subs
  parent_shorter : ∀ s ∈ c.link.sections.values, ∀ above ∈ s.parent, above.length < s.name.length
  acyclic : ∀ name, ¬ Relation.TransGen c.link.Lists name name
  parents_end : ∀ s ∈ c.link.sections.values,
    ∃ n, (fun above => Option.bind above parentName)^[n] s.parent = none
  /-- Nothing else changes. -/
  frame : c.link.unlinked = c.unlinked
  /-- It does not matter what was listed before. -/
  independent : ∀ c' : Catalogue, c'.unlinked = c.unlinked → c'.link = c.link
  /-- Nor does earlier linking, at once or any operations later. -/
  link_run : ∀ operations,
    (c.link.run operations).link = (c.run (operations.filter (!·.links))).link

/-- The lists after linking, by the sections after linking. -/
theorem subs_link {o : Section} (ho : o ∈ c.link.sections.values) :
    o.subs = childrenOf c.link.sections.values o.name := by
  have hnames : childrenOf c.link.sections.values o.name = childrenOf c.sections.values o.name := by
    rw [childrenOf_eq, childrenOf_eq, names_link]
  rw [hnames]
  obtain ⟨k, hk⟩ := OrderedMap.mem_values.1 ho
  rw [link, OrderedMap.entries_mapValues, List.mem_map] at hk
  obtain ⟨e, -, he⟩ := hk
  cases he
  rfl

/-- A section lists the names of sections whose parent it is. -/
theorem mem_subs_link {o : Section} (ho : o ∈ c.link.sections.values) :
    name ∈ o.subs ↔
      name ∈ c.link.sections.values.map Section.name ∧ parentName name = some o.name := by
  rw [subs_link ho, childrenOf_eq, List.mem_filter, decide_eq_true_eq]

theorem length_lt_of_lists {above : Text} (h : c.link.Lists above name) :
    above.length < name.length := by
  obtain ⟨o, ho, rfl, hname⟩ := h
  exact length_lt_of_parentName ((mem_subs_link ho).1 hname).2

/-- Every list is one of shorter and shorter names upwards. -/
theorem length_lt_of_transGen {above : Text} (h : Relation.TransGen c.link.Lists above name) :
    above.length < name.length := by
  induction h with
  | single hlists => exact length_lt_of_lists hlists
  | tail _ hlists ih => exact Nat.lt_trans ih (length_lt_of_lists hlists)

theorem WellFormed.formsForest (h : c.WellFormed) : c.FormsForest where
  subs_eq o ho := subs_link ho
  subs_nodup o ho := by
    rw [subs_link ho, childrenOf_eq]
    exact h.link.names_nodup.filter _
  listed_once s hs above habove hparent := by
    obtain ⟨o, ho⟩ := OrderedMap.mem_keys.1 habove
    have hmem : o ∈ c.link.sections.values := OrderedMap.mem_values.2 ⟨above, ho⟩
    have hname : o.name = above := h.link.section_named _ ho
    refine ⟨o, ⟨hmem, ?_⟩, ?_⟩
    · rw [mem_subs_link hmem, hname]
      exact ⟨List.mem_map_of_mem hs, hparent⟩
    · -- any section that lists it has the name of the parent
      rintro o' ⟨ho', hlisted⟩
      have hparent' := ((mem_subs_link ho').1 hlisted).2
      have hname' : some above = some o'.name := hparent.symm.trans hparent'
      refine List.inj_on_of_nodup_map h.link.names_nodup ho' hmem ?_
      rw [hname, Option.some.inj hname']
  not_listed s hs hgone o ho hlisted := by
    obtain ⟨k, hk⟩ := OrderedMap.mem_values.1 ho
    have hname : o.name = k := h.link.section_named _ hk
    refine hgone o.name ((mem_subs_link ho).1 hlisted).2 ?_
    rw [hname]
    exact OrderedMap.mem_keys.2 ⟨o, hk⟩
  parent_shorter s hs above hparent := length_lt_of_parentName hparent
  acyclic name hcycle := Nat.lt_irrefl _ (length_lt_of_transGen hcycle)
  parents_end s hs := parents_end s.parent
  frame := unlinked_link c
  independent c' := link_eq_of_unlinked_eq
  link_run operations := link_eq_of_unlinked_eq (unlinked_run (unlinked_link c) operations)

/-- **After every run, linking makes a forest of the sections.** -/
theorem formsForest_run (knownTags : List Text) (operations : List Operation) :
    ((new knownTags).run operations).FormsForest :=
  ((wellFormed_new knownTags).run operations).formsForest

end Catalogue

end TexSymbols
