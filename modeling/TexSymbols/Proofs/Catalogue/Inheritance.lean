import TexSymbols.Proofs.Attributes.Inherit
import TexSymbols.Proofs.Catalogue.Extension
import TexSymbols.Proofs.Catalogue.History

/-!
# What symbols have from their sections, after any run

* `Catalogue.disagreementsAbout` — the warnings that a symbol and its section disagree.
* `Catalogue.Recorded` — the invariant: every symbol was made by a group of the history, with what
  its section says now.
* `Catalogue.Inherits` — where attributes, sample and entry of a symbol come from, and what was said
  about them; `Catalogue.inheritance_run` — after every run this holds of every symbol.
-/

namespace TexSymbols

open ItemGroup

/-- The command whose attributes differ from those of its section, if the warning says so. -/
def Warning.disagreeing? : Warning → Option Text
  | disagreement command .. => some command
  | _ => none

/-! ## Which warnings say so -/

theorem disagreeing?_runWarningsFrom (known : List Text) (before : Attributes) (run : List Block) :
    (runWarningsFrom known before run).filterMap Warning.disagreeing? = [] := by
  induction run generalizing before with
  | nil => rfl
  | cons b run ih =>
    rw [runWarningsFrom, List.filterMap_append, ih, List.append_nil, Block.warnings]
    split <;> split <;> rfl

theorem disagreeing?_runWarnings (known : List Text) (run : List Block) :
    ∀ w ∈ runWarnings known run, w.disagreeing? = none :=
  List.filterMap_eq_nil_iff.1 (disagreeing?_runWarningsFrom ..)

theorem disagreeing?_disagreements (command : Text) (loc : Location) (above own : Attributes) :
    ∀ w ∈ above.disagreements command loc own, w.disagreeing? = some command := by
  intro w hw
  obtain ⟨e, -, he⟩ := List.mem_filterMap.1 hw
  obtain ⟨v, -, rfl⟩ := Option.map_eq_some_iff.1 he
  rfl

namespace Catalogue

variable {c c' : Catalogue} {past : List ItemGroup} {p p' : Progress} {s : Symbol}

/-- The warnings that the symbol `command` and its section disagree. -/
def disagreementsAbout (c : Catalogue) (command : Text) : List Warning :=
  c.warnings.filter (·.disagreeing? = some command)

theorem disagreementsAbout_warn (c : Catalogue) (ws : List Warning) (command : Text) :
    (c.warn ws).disagreementsAbout command =
      c.disagreementsAbout command ++ ws.filter (·.disagreeing? = some command) :=
  List.filter_append ..

theorem disagreementsAbout_warn_of_none {ws : List Warning}
    (h : ∀ w ∈ ws, w.disagreeing? = none) (command : Text) :
    (c.warn ws).disagreementsAbout command = c.disagreementsAbout command := by
  rw [disagreementsAbout_warn, List.filter_eq_nil_iff.2, List.append_nil]
  intro w hw
  simp [h w hw]

theorem disagreementsAbout_runWarnings (c : Catalogue) (known : List Text) (run : List Block)
    (command : Text) :
    (c.warn (runWarnings known run)).disagreementsAbout command = c.disagreementsAbout command :=
  disagreementsAbout_warn_of_none (disagreeing?_runWarnings known run) command

/-! ## The invariant -/

/-- A group of the history made the symbol, in the section that was declared last before it. -/
def Registered (past : List ItemGroup) (c : Catalogue) (s : Symbol) : Prop :=
  ∃ before g after, past = before ++ g :: after ∧
    g.first = .ok (.definition s.toDefinition s.loc) ∧
    (before.filterMap section?).getLast? = some s.owner ∧
    s.MadeFrom c s.toDefinition s.loc g.run ∧
    c.disagreementsAbout s.command =
      (Reader.inherited c s.owner).disagreements s.command s.loc (attributesOf g.run)

/-- Every symbol was made by a group of the history. -/
structure Recorded (past : List ItemGroup) (p : Progress) : Prop where
  current_eq : ∀ name ∈ p.current, (past.filterMap section?).getLast? = some name
  commands_eq : p.catalogue.symbols.keys = past.filterMap command?
  registered : ∀ s ∈ p.catalogue.symbols.values, Registered past p.catalogue s
  silent : ∀ command ∉ p.catalogue.symbols.keys, p.catalogue.disagreementsAbout command = []

/-- What is inherited from a declared section stays the same. -/
theorem declaredAttributes_eq_of_extends (h : c.Extends Section.Keeps c') {name : Text}
    (hname : c.Declares name) : c'.declaredAttributes name = c.declaredAttributes name := by
  obtain ⟨d, hd⟩ := Option.isSome_iff_exists.1 hname
  rw [declaredAttributes, declaredAttributes, hd, h.declaration? hd]

theorem Registered.mono (h : Registered past c s) (more : List ItemGroup)
    (hattributes : c'.declaredAttributes s.owner = c.declaredAttributes s.owner)
    (hwarnings : c'.disagreementsAbout s.command = c.disagreementsAbout s.command) :
    Registered (past ++ more) c' s := by
  obtain ⟨before, g, after, rfl, hfirst, howner, hmade, hdisagree⟩ := h
  refine ⟨before, g, after ++ more, by simp, hfirst, howner, ?_, ?_⟩
  · exact { hmade with attributes_overlaid := hattributes ▸ hmade.attributes_overlaid }
  · rw [hwarnings, hdisagree, inherited_eq, inherited_eq, hattributes]

/-- Where no symbol is made, what holds of the symbols stays. -/
theorem Recorded.of_symbols_eq (h : Recorded past p) (hc : p.catalogue.WellFormed)
    {more : List ItemGroup} (hmore : more.filterMap command? = [])
    (hcurrent : ∀ name ∈ p'.current, ((past ++ more).filterMap section?).getLast? = some name)
    (hextends : p.catalogue.Extends Section.Keeps p'.catalogue)
    (hsymbols : p'.catalogue.symbols = p.catalogue.symbols)
    (hwarnings : ∀ command, p'.catalogue.disagreementsAbout command =
      p.catalogue.disagreementsAbout command) : Recorded (past ++ more) p' where
  current_eq := hcurrent
  commands_eq := by
    rw [hsymbols, h.commands_eq, List.filterMap_append, hmore, List.append_nil]
  registered s hs := by
    rw [hsymbols] at hs
    have hattributes := declaredAttributes_eq_of_extends hextends (hc.owner_declared s hs)
    exact (h.registered s hs).mono more hattributes (hwarnings _)
  silent command hcommand := by
    rw [hsymbols] at hcommand
    rw [hwarnings, h.silent command hcommand]

/-- Where one symbol is made, what holds of the others stays too. -/
theorem Recorded.add (h : Recorded past p) (hc : p.catalogue.WellFormed) {g : ItemGroup}
    (hg : g.first = .ok (.definition s.toDefinition s.loc)) (howner : p.current = some s.owner)
    (hdeclared : p.catalogue.Declares s.owner) (hnew : s.command ∉ p.catalogue.symbols.keys)
    (hmade : s.MadeFrom p.catalogue s.toDefinition s.loc g.run)
    (hcurrent : p'.current = p.current)
    (hextends : p.catalogue.Extends Section.Keeps p'.catalogue)
    (hentries : p'.catalogue.symbols.entries = p.catalogue.symbols.entries ++ [(s.command, s)])
    (hwarnings : ∀ command, p'.catalogue.disagreementsAbout command =
      p.catalogue.disagreementsAbout command ++
        if command = s.command then
          (Reader.inherited p.catalogue s.owner).disagreements command s.loc (attributesOf g.run)
        else []) : Recorded (past ++ [g]) p' where
  current_eq name hname := by
    rw [hcurrent] at hname
    rw [List.filterMap_append, List.filterMap_cons_none (section?_of_definition hg),
      List.filterMap_nil, List.append_nil, h.current_eq name hname]
  commands_eq := by
    rw [OrderedMap.keys, hentries, List.map_append, List.filterMap_append,
      List.filterMap_cons_some (command?_of_definition hg), ← h.commands_eq]
    rfl
  registered t ht := by
    rw [OrderedMap.values, hentries, List.map_append, List.mem_append] at ht
    rcases ht with hold | hlast
    · have hattributes := declaredAttributes_eq_of_extends hextends (hc.owner_declared t hold)
      refine (h.registered t hold).mono [g] hattributes ?_
      -- it has another command
      have hne : t.command ≠ s.command := by
        obtain ⟨k, hk⟩ := OrderedMap.mem_values.1 hold
        have hcommand : t.command = k := hc.symbol_named _ hk
        intro heq
        exact hnew (heq ▸ hcommand ▸ OrderedMap.mem_keys.2 ⟨t, hk⟩)
      rw [hwarnings, if_neg hne, List.append_nil]
    · -- there was no warning about the new one before
      obtain rfl : t = s := by simpa using hlast
      have hattributes := declaredAttributes_eq_of_extends hextends hdeclared
      refine ⟨past, g, [], rfl, hg, h.current_eq t.owner howner, ?_, ?_⟩
      · exact { hmade with attributes_overlaid := hattributes ▸ hmade.attributes_overlaid }
      · rw [hwarnings, if_pos rfl, h.silent _ hnew, inherited_eq, inherited_eq, hattributes,
          List.nil_append]
  silent command hcommand := by
    rw [OrderedMap.keys, hentries, List.map_append, List.mem_append, not_or] at hcommand
    have hne : command ≠ s.command := fun heq => hcommand.2 (by simp [heq])
    rw [hwarnings, if_neg hne, h.silent command hcommand.1, List.append_nil]

/-- The warnings that symbols and their sections disagree, after one more definition. -/
theorem disagreementsAbout_define {g : ItemGroup} {d : Definition} {loc : Location} {owner : Text}
    {nomenclature : Option NomenclatureEntry} (command : Text) :
    ((p.warn (runWarnings p.catalogue.knownTags g.run)).define owner d loc (attributesOf g.run)
        nomenclature).catalogue.disagreementsAbout command =
      p.catalogue.disagreementsAbout command ++
        if command = d.command then
          (Reader.inherited p.catalogue owner).disagreements command loc (attributesOf g.run)
        else [] := by
  have hrun := disagreementsAbout_runWarnings p.catalogue p.catalogue.knownTags g.run command
  have habout := disagreeing?_disagreements d.command loc (Reader.inherited p.catalogue owner)
    (attributesOf g.run)
  refine (disagreementsAbout_warn _ _ command).trans (congrArg₂ (· ++ ·) hrun ?_)
  by_cases heq : command = d.command
  · subst heq
    rw [if_pos rfl]
    exact List.filter_eq_self.2 fun w hw => decide_eq_true (habout w hw)
  · rw [if_neg heq, List.filter_eq_nil_iff]
    intro w hw
    simpa [habout w hw] using Ne.symm heq

/-- A group that is no definition makes no symbol. -/
theorem Recorded.other (h : Recorded past p) (hc : p.catalogue.WellFormed) {g : ItemGroup}
    (hs : g.Step p p') (hcommand : g.command? = none)
    (hsymbols : p'.catalogue.symbols = p.catalogue.symbols)
    (hwarnings : ∀ command, p'.catalogue.disagreementsAbout command =
      p.catalogue.disagreementsAbout command) :
    Recorded (past ++ [g].filter isEventful) p' := by
  refine h.of_symbols_eq hc ?_ ?_ (extends_step hs).toKeeps hsymbols hwarnings
  · rw [filterMap_filter_isEventful (f := command?) fun g hg => by simp [command?, hg]]
    simp [hcommand]
  · intro name hname
    rw [step_current hs] at hname
    rw [List.filterMap_append,
      filterMap_filter_isEventful (f := section?) fun g hg => by simp [section?, hg]]
    cases hsection : g.section? with
    | none =>
      rw [hsection, Option.none_or] at hname
      rw [List.filterMap_cons_none hsection, List.filterMap_nil, List.append_nil,
        h.current_eq name hname]
    | some declared =>
      rw [hsection, Option.some_or] at hname
      rw [List.filterMap_cons_some hsection, List.filterMap_nil, List.getLast?_concat]
      exact hname

theorem historyInvariant_recorded : HistoryInvariant Recorded where
  new knownTags :=
    ⟨fun _ hname => (by cases hname), rfl, fun _ hs => (by simp [new] at hs), fun _ _ => rfl⟩
  step past p p' g hsound h hs := by
    have hother := h.other hsound.wellFormed hs
    have hextends := (extends_step hs).toKeeps
    cases hs with
    | passthrough hg =>
      exact hother (by simp [command?, event?, hg, Event.command?]) rfl fun _ => rfl
    | floating hg =>
      refine hother (command?_of_block hg) rfl ?_
      exact disagreementsAbout_warn_of_none (by simp [Warning.disagreeing?])
    | declared hg _ _ hdec =>
      obtain ⟨hsymbols, -, hwarnings⟩ := declare_frame hdec
      refine hother (command?_of_block hg) hsymbols ?_
      intro command
      rw [disagreementsAbout, hwarnings]
      exact disagreementsAbout_runWarnings p.catalogue _ _ command
    | @defined d loc owner nomenclature hg howner hentry hnew =>
      have hevent : g.isEventful = true := by simp [isEventful, event?, hg]
      rw [List.filter_cons_of_pos hevent, List.filter_nil]
      refine h.add (s := p.symbol owner d loc (attributesOf g.run) nomenclature) hsound.wellFormed
        hg howner (hsound.current_declared owner howner) (OrderedMap.find?_eq_none.1 hnew) ?_ rfl
        hextends ?_ disagreementsAbout_define
      · exact Progress.madeFrom_symbol hentry
      · exact OrderedMap.entries_insert_of_notMem (OrderedMap.find?_eq_none.1 hnew) _
  warn past p known run hsound h := by
    rw [← List.append_nil past]
    refine h.of_symbols_eq hsound.wellFormed rfl ?_ (extends_warn ..).toKeeps rfl
      (disagreementsAbout_runWarnings p.catalogue known run)
    rw [List.append_nil]
    exact h.current_eq
  finish past p h := { h with current_eq := fun name hname => by cases hname }
  reserve past c name hc h := by
    obtain ⟨hsymbols, hwarnings⟩ := reserve_frame c name
    rw [← List.append_nil past]
    refine h.of_symbols_eq hc rfl (fun name hname => by cases hname)
      (extends_reserve c name).toKeeps hsymbols ?_
    intro command
    rw [disagreementsAbout, hwarnings]
    rfl
  link past c hc h := by
    rw [← List.append_nil past]
    exact h.of_symbols_eq hc rfl (fun name hname => by cases hname) (extends_link c) rfl
      fun _ => rfl

/-! ## What symbols have from their sections -/

/-- What the symbol `s` has from its section `o` and from `own`, the attributes behind its
definition. -/
structure Inherits (c : Catalogue) (s : Symbol) (o : Section) (own : Attributes) : Prop where
  attributes_overlaid : Attributes.Overlaid o.attributes own s.attributes
  /-- The sample and the entry are not inherited. -/
  sample_eq : s.sample = own.find? Tag.sample
  nomenclature_eq : NomenclatureEntry.read? ((own.find? Tag.entry).getD []) = some s.nomenclature
  /-- There is a warning for each tag with two values, and none else about the symbol. -/
  contradicted : Attributes.Contradicted s.command s.loc o.attributes own
    (c.disagreementsAbout s.command)

/-- The symbols are those that the groups of the history define, each in the section declared last
before it; each has what its section says now. -/
structure Inheritance (past : List ItemGroup) (c : Catalogue) : Prop where
  commands_eq : c.symbols.keys = past.filterMap command?
  inherits : ∀ s ∈ c.symbols.values, ∃ before g after o, past = before ++ g :: after ∧
    g.first = .ok (.definition s.toDefinition s.loc) ∧
    (before.filterMap section?).getLast? = some s.owner ∧
    c.sections.find? s.owner = some o ∧ o.isReserved = false ∧
    c.Inherits s o (attributesOf g.run)
  /-- There are no such warnings about other commands. -/
  silent : ∀ command ∉ c.symbols.keys, c.disagreementsAbout command = []

theorem Registered.inherits (h : Registered past c s) {o : Section}
    (ho : c.sections.find? s.owner = some o) :
    ∃ before g after, past = before ++ g :: after ∧
      g.first = .ok (.definition s.toDefinition s.loc) ∧
      (before.filterMap section?).getLast? = some s.owner ∧
      c.Inherits s o (attributesOf g.run) := by
  obtain ⟨before, g, after, hpast, hfirst, howner, hmade, hdisagree⟩ := h
  have habove : Reader.inherited c s.owner = o.attributes := by rw [Reader.inherited, ho]; rfl
  rw [inherited_eq] at habove
  refine ⟨before, g, after, hpast, hfirst, howner, ?_, hmade.sample_eq, hmade.nomenclature_eq, ?_⟩
  · rw [← habove]
    exact hmade.attributes_overlaid
  · rw [hdisagree, inherited_eq, habove]
    exact Attributes.contradicted_disagreements ..

/-- **After every run, symbols have what their sections say now**, however and whenever the
sections were declared, and their own attributes. -/
theorem inheritance_run (knownTags : List Text) (operations : List Operation) :
    Inheritance ((new knownTags).history operations) ((new knownTags).run operations) where
  commands_eq := (historyInvariant_recorded.run knownTags operations).commands_eq
  inherits s hs := by
    have hrecorded := historyInvariant_recorded.run knownTags operations
    have hc := (wellFormed_new knownTags).run operations
    obtain ⟨o, ho, hdeclared⟩ := declares_iff.1 (hc.owner_declared s hs)
    obtain ⟨before, g, after, hpast, hfirst, howner, hinherits⟩ :=
      (hrecorded.registered s hs).inherits ho
    exact ⟨before, g, after, o, hpast, hfirst, howner, ho, hdeclared, hinherits⟩
  silent := (historyInvariant_recorded.run knownTags operations).silent

end Catalogue

end TexSymbols
