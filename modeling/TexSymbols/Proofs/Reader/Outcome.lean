import TexSymbols.Proofs.Attributes.Inherit
import TexSymbols.Proofs.Reader.Progress

/-!
# What reading groups makes of a catalogue

* `ItemGroup.section?`, `ItemGroup.command?`, `ItemGroup.floating?` — what a group stands for.
* `ItemGroup.step_current`, `step_symbols`, `step_defined`, `step_keys`, `step_declared`,
  `step_warnings` — what one group changes.
* `Reads.Outcome` — the catalogue after a list of groups, described by the list; `Reads.outcome` —
  reading the groups leads to it.
-/

namespace TexSymbols

/-- The section that an event declares. -/
def Event.section? : Event → Option Text
  | declared name => some name
  | _ => none

/-- The command that an event defines. -/
def Event.command? : Event → Option Text
  | defined command => some command
  | _ => none

/-- The block that a warning is about, if it says that the block has no head. -/
def Warning.floating? : Warning → Option (Text × Location)
  | floatingTag tag loc => some (tag, loc)
  | _ => none

namespace ItemGroup

/-- The section that a group declares. -/
def section? (g : ItemGroup) : Option Text := g.event?.bind Event.section?

/-- The command that a group defines. -/
def command? (g : ItemGroup) : Option Text := g.event?.bind Event.command?

/-- The block that stands alone in a group. -/
def floating? (g : ItemGroup) : Option (Text × Location) :=
  match g.first with
  | .ok (.block b) => if b.tag = Tag.declares then none else some (b.tag, b.loc)
  | _ => none

end ItemGroup

/-! ## Warnings about runs -/

theorem floating?_runWarningsFrom (known : List Text) (before : Attributes) (run : List Block) :
    (runWarningsFrom known before run).filterMap Warning.floating? = [] := by
  induction run generalizing before with
  | nil => rfl
  | cons b run ih =>
    rw [runWarningsFrom, List.filterMap_append, ih, List.append_nil, Block.warnings]
    split <;> split <;> rfl

theorem floating?_runWarnings (known : List Text) (run : List Block) :
    (runWarnings known run).filterMap Warning.floating? = [] :=
  floating?_runWarningsFrom ..

theorem floating?_disagreements (command : Text) (loc : Location) (inherited own : Attributes) :
    (inherited.disagreements command loc own).filterMap Warning.floating? = [] := by
  simp only [List.filterMap_eq_nil_iff]
  intro w hw
  obtain ⟨e, -, he⟩ := List.mem_filterMap.1 hw
  obtain ⟨v, -, rfl⟩ := Option.map_eq_some_iff.1 he
  rfl

/-- The attributes in the declaration of a section. -/
def Catalogue.declaredAttributes (c : Catalogue) (name : Text) : Attributes :=
  ((c.declaration? name).map Declaration.attributes).getD .empty

/-- What is inherited from a section is what its declaration says. -/
theorem inherited_eq (c : Catalogue) (name : Text) :
    Reader.inherited c name = c.declaredAttributes name := by
  unfold Reader.inherited Catalogue.declaredAttributes Catalogue.declaration? Section.attributes
  cases c.sections.find? name <;> rfl

/-! ## One group -/

/-- The symbol `s` is made from a definition with the given run, in a section of `c`. -/
structure Symbol.MadeFrom (c : Catalogue) (d : Definition) (loc : Location) (run : List Block)
    (s : Symbol) : Prop where
  toDefinition_eq : s.toDefinition = d
  loc_eq : s.loc = loc
  synonyms_eq : s.synonyms = []
  sample_eq : s.sample = (attributesOf run).find? Tag.sample
  nomenclature_eq : NomenclatureEntry.read? (Progress.entryOf run) = some s.nomenclature
  attributes_overlaid :
    Attributes.Overlaid (c.declaredAttributes s.owner) (attributesOf run) s.attributes

theorem Progress.madeFrom_symbol {p : Progress} {owner : Text} {d : Definition} {loc : Location}
    {run : List Block} {nomenclature : Option NomenclatureEntry}
    (hentry : NomenclatureEntry.read? (entryOf run) = some nomenclature) :
    (p.symbol owner d loc (attributesOf run) nomenclature).MadeFrom p.catalogue d loc run where
  toDefinition_eq := rfl
  loc_eq := rfl
  synonyms_eq := rfl
  sample_eq := rfl
  nomenclature_eq := hentry
  attributes_overlaid := by
    rw [← inherited_eq]
    exact Attributes.overlaid_inherit ..

namespace ItemGroup

variable {p p' : Progress} {g : ItemGroup}

/-- A section tag becomes the current section. -/
theorem step_current (h : g.Step p p') : p'.current = g.section?.or p.current := by
  cases h with
  | passthrough hg => simp [section?, event?, hg, Event.section?]
  | floating hg htag => simp [section?, event?, hg, Block.item, htag, Progress.warn]
  | declared hg htag => simp [section?, event?, hg, Block.item, htag, Event.section?]
  | defined hg => simp [section?, event?, hg, Event.section?, Progress.define, Progress.warn]

/-- A definition adds a symbol at the end. -/
theorem step_symbols (h : g.Step p p') :
    ∃ new, p'.catalogue.symbols.entries = p.catalogue.symbols.entries ++ new ∧
      new.map Prod.fst = g.command?.toList := by
  cases h with
  | passthrough hg => exact ⟨[], by simp, by simp [command?, event?, hg, Event.command?]⟩
  | floating hg htag => exact ⟨[], by simp, by simp [command?, event?, hg, Block.item, htag]⟩
  | declared hg htag _ hdec =>
    refine ⟨[], ?_, by simp [command?, event?, hg, Block.item, htag, Event.command?]⟩
    rw [(Catalogue.declare_frame hdec).1, Progress.warn_symbols, List.append_nil]
  | defined hg _ _ hnew =>
    refine ⟨[_], OrderedMap.entries_insert_of_notMem (OrderedMap.find?_eq_none.1 hnew) _, ?_⟩
    simp [command?, event?, hg, Event.command?, Progress.symbol]

/-- The symbol that a definition adds belongs to the current section. -/
theorem step_defined {d : Definition} {loc : Location} (h : g.Step p p')
    (hg : g.first = .ok (.definition d loc)) :
    ∃ owner s, p.current = some owner ∧ p'.catalogue.symbols.find? d.command = some s ∧
      s.owner = owner ∧ s.MadeFrom p.catalogue d loc g.run := by
  cases h with
  | passthrough hg' => rw [hg] at hg'; cases hg'
  | floating hg' => rw [hg] at hg'; cases hg'
  | declared hg' => rw [hg] at hg'; cases hg'
  | @defined _ _ owner nomenclature hg' howner hentry hnew =>
    rw [hg] at hg'
    cases hg'
    refine ⟨owner, _, howner, Catalogue.find?_register _, rfl, ?_⟩
    exact Progress.madeFrom_symbol hentry

/-- A section tag adds a section at the end, unless the name is reserved. -/
theorem step_keys (h : g.Step p p') :
    ∃ new, p'.catalogue.sections.keys = p.catalogue.sections.keys ++ new ∧
      new.Sublist g.section?.toList ∧ ∀ name ∈ g.section?, name ∈ p'.catalogue.sections.keys := by
  cases h with
  | passthrough hg => exact ⟨[], by simp, by simp, by simp [section?, event?, hg, Event.section?]⟩
  | floating hg htag =>
    refine ⟨[], by simp [Progress.warn, Catalogue.warn], by simp, ?_⟩
    simp [section?, event?, hg, Block.item, htag]
  | @declared b _ c hg htag _ hdec =>
    have hname : g.section? = some b.sectionName := by
      simp [section?, event?, hg, Block.item, htag, Event.section?]
    rw [hname]
    by_cases hmem : b.sectionName ∈ p.catalogue.sections.keys
    · have hkeys := Catalogue.keys_declare_of_mem hdec hmem
      rw [Progress.warn_sections] at hkeys
      exact ⟨[], by simpa using hkeys, by simp, by simpa [hkeys] using hmem⟩
    · have hkeys := Catalogue.keys_declare_of_notMem hdec hmem
      rw [Progress.warn_sections] at hkeys
      exact ⟨[b.sectionName], hkeys, by simp, by simp [hkeys]⟩
  | defined hg =>
    refine ⟨[], ?_, by simp, by simp [section?, event?, hg, Event.section?]⟩
    simp [Progress.define, Catalogue.register, Progress.warn, Catalogue.warn]

/-- What a section tag says becomes the declaration of its section, which had none. -/
theorem step_declared {b : Block} (h : g.Step p p') (hg : g.first = b.item)
    (htag : b.tag = Tag.declares) :
    p.catalogue.declaration? b.sectionName = none ∧
      ∃ description, sectionHead? b.content = some (b.sectionName, description) ∧
        p'.catalogue.declaration? b.sectionName =
          some ⟨description, attributesOf g.run, b.loc⟩ := by
  cases h with
  | passthrough hg' => rw [hg] at hg'; cases hg'
  | floating hg' htag' =>
    rw [hg] at hg'
    cases hg'
    exact absurd htag htag'
  | declared hg' _ hhead hdec =>
    rw [hg] at hg'
    cases hg'
    refine ⟨(Catalogue.declare_eq_ok hdec).1, _, hhead, ?_⟩
    rw [Catalogue.declaration?_declare hdec, if_pos rfl]
  | defined hg' => rw [hg] at hg'; cases hg'

/-- No other declaration changes. -/
theorem step_declaration? {name : Text} (h : g.Step p p') (hname : g.section? ≠ some name) :
    p'.catalogue.declaration? name = p.catalogue.declaration? name := by
  cases h with
  | passthrough hg => rfl
  | floating hg htag => rfl
  | declared hg htag _ hdec =>
    rw [Catalogue.declaration?_declare hdec, if_neg ?_]
    · rfl
    · rintro rfl
      exact hname (by simp [section?, event?, hg, Block.item, htag, Event.section?])
  | defined hg => exact Catalogue.declaration?_register _

/-- A declaration stays. -/
theorem step_declaration?_of_some {name : Text} {o : Declaration} (h : g.Step p p')
    (ho : p.catalogue.declaration? name = some o) : p'.catalogue.declaration? name = some o := by
  cases h with
  | passthrough hg => exact ho
  | floating hg htag => exact ho
  | declared hg htag _ hdec =>
    rw [Catalogue.declaration?_declare hdec, if_neg ?_]
    · exact ho
    · rintro rfl
      have hnone := (Catalogue.declare_eq_ok hdec).1
      rw [Progress.warn_declaration?, ho] at hnone
      cases hnone
  | defined hg => exact (Catalogue.declaration?_register _).trans ho

/-- A block that stands alone leaves one warning; the other groups leave warnings of other kinds. -/
theorem step_warnings (h : g.Step p p') :
    ∃ new, p'.catalogue.warnings = p.catalogue.warnings ++ new ∧
      new.filterMap Warning.floating? = g.floating?.toList := by
  cases h with
  | passthrough hg => exact ⟨[], by simp, by simp [floating?, hg]⟩
  | floating hg htag =>
    exact ⟨[_], rfl, by simp [floating?, hg, Block.item, htag, Warning.floating?]⟩
  | declared hg htag _ hdec =>
    refine ⟨runWarnings p.catalogue.knownTags g.run, (Catalogue.declare_frame hdec).2.2, ?_⟩
    rw [floating?_runWarnings]
    simp [floating?, hg, Block.item, htag]
  | defined hg =>
    refine ⟨runWarnings p.catalogue.knownTags g.run ++ _, (List.append_assoc ..), ?_⟩
    rw [List.filterMap_append, floating?_runWarnings, floating?_disagreements]
    simp [floating?, hg]

theorem section?_of_definition {d : Definition} {loc : Location}
    (hg : g.first = .ok (.definition d loc)) : g.section? = none := by
  simp [section?, event?, hg, Event.section?]

theorem command?_of_definition {d : Definition} {loc : Location}
    (hg : g.first = .ok (.definition d loc)) : g.command? = some d.command := by
  simp [command?, event?, hg, Event.command?]

theorem command?_of_block {b : Block} (hg : g.first = b.item) : g.command? = none := by
  by_cases htag : b.tag = Tag.declares <;>
    simp [command?, event?, hg, Block.item, htag, Event.command?]

theorem section?_eq_some_iff {name : Text} :
    g.section? = some name ↔
      ∃ b : Block, g.first = b.item ∧ b.tag = Tag.declares ∧ b.sectionName = name := by
  obtain ⟨first, run⟩ := g
  rcases first with e | ⟨d, loc⟩ | b | ⟨line, loc⟩
  · simp [section?, event?, Block.item]
  · simp [section?, event?, Block.item, Event.section?]
  · by_cases htag : b.tag = Tag.declares <;>
      simp [section?, event?, Block.item, Event.section?, htag]
  · simp [section?, event?, Block.item, Event.section?]

end ItemGroup

/-! ## Many groups -/

namespace Reads

open ItemGroup

variable {c : Catalogue} {done : List ItemGroup} {p p' : Progress} {g : ItemGroup}

/-- What is known of the catalogue after the groups `done`, and of the section that is current
then. -/
structure Outcome (c : Catalogue) (done : List ItemGroup) (p : Progress) : Prop where
  /-- The last section tag gives the current section. -/
  current_eq : p.current = (done.filterMap section?).getLast?
  /-- There is one new symbol for each definition, in the order of the groups. -/
  symbols_eq : ∃ new, p.catalogue.symbols.entries = c.symbols.entries ++ new ∧
    new.map Prod.fst = done.filterMap command?
  /-- It is made from the definition and its run, and belongs to the last section before it. -/
  defined : ∀ before g after d loc, done = before ++ g :: after →
    g.first = .ok (.definition d loc) →
    ∃ s, p.catalogue.symbols.find? d.command = some s ∧
      (before.filterMap section?).getLast? = some s.owner ∧
      s.MadeFrom p.catalogue d loc g.run
  /-- Sections are added at the end, in the order of the groups, unless their names are reserved. -/
  sections_eq : ∃ new, p.catalogue.sections.keys = c.sections.keys ++ new ∧
    new.Sublist (done.filterMap section?)
  /-- No section is declared twice. -/
  names_nodup : (done.filterMap section?).Nodup
  /-- What a section tag says, with its run, becomes the declaration of its section, which had
  none. -/
  declared : ∀ g ∈ done, ∀ b : Block, g.first = b.item → b.tag = Tag.declares →
    c.declaration? b.sectionName = none ∧
      ∃ description, sectionHead? b.content = some (b.sectionName, description) ∧
        p.catalogue.declaration? b.sectionName = some ⟨description, attributesOf g.run, b.loc⟩
  /-- The other declarations are as they were. -/
  others : ∀ name ∉ done.filterMap section?, p.catalogue.declaration? name = c.declaration? name
  /-- There is one new warning for each block that stands alone, in the order of the groups. -/
  floating_eq : ∃ new, p.catalogue.warnings = c.warnings ++ new ∧
    new.filterMap Warning.floating? = done.filterMap floating?

theorem outcome_start (c : Catalogue) : Outcome c [] ⟨c, none⟩ where
  current_eq := rfl
  symbols_eq := ⟨[], by simp, rfl⟩
  defined before g after d loc h := by simp at h
  sections_eq := ⟨[], by simp, by simp⟩
  names_nodup := List.nodup_nil
  declared g hg := by simp at hg
  others name _ := rfl
  floating_eq := ⟨[], by simp, rfl⟩

theorem Outcome.declaration?_of_mem (h : Outcome c done p) {name : Text}
    (hname : name ∈ done.filterMap section?) :
    ∃ o, p.catalogue.declaration? name = some o := by
  obtain ⟨g, hg, hs⟩ := List.mem_filterMap.1 hname
  obtain ⟨b, hb, htag, rfl⟩ := section?_eq_some_iff.1 hs
  obtain ⟨-, description, -, ho⟩ := h.declared g hg b hb htag
  exact ⟨_, ho⟩

/-- Warnings about runs change nothing that is known. -/
theorem Outcome.warn (h : Outcome c done p) {ws : List Warning}
    (hws : ws.filterMap Warning.floating? = []) :
    Outcome c done (p.warn ws) where
  current_eq := h.current_eq
  symbols_eq := h.symbols_eq
  defined before g after d loc hsplit hg := by
    obtain ⟨s, hfind, hlast, hmade⟩ := h.defined before g after d loc hsplit hg
    exact ⟨s, hfind, hlast, { hmade with attributes_overlaid := hmade.attributes_overlaid }⟩
  sections_eq := h.sections_eq
  names_nodup := h.names_nodup
  declared := h.declared
  others := h.others
  floating_eq := by
    obtain ⟨new, hnew, hfloat⟩ := h.floating_eq
    refine ⟨new ++ ws, ?_, by rw [List.filterMap_append, hws, List.append_nil, hfloat]⟩
    rw [← List.append_assoc, ← hnew]
    rfl

/-- The last element of a list with an element in the middle is that element or one behind it. -/
theorem append_singleton_eq {α : Type} {init before after : List α} {x y : α}
    (h : init ++ [x] = before ++ y :: after) :
    after = [] ∧ before = init ∧ y = x ∨
      ∃ after', after = after' ++ [x] ∧ init = before ++ y :: after' := by
  rcases List.eq_nil_or_concat after with rfl | ⟨after', z, rfl⟩
  · obtain ⟨rfl, hx⟩ := List.append_inj' h rfl
    exact .inl ⟨rfl, rfl, (List.cons.inj hx).1.symm⟩
  · rw [List.concat_eq_append] at h ⊢
    rw [← List.cons_append, ← List.append_assoc] at h
    obtain ⟨rfl, hx⟩ := List.append_inj' h rfl
    exact .inr ⟨after', by rw [(List.cons.inj hx).1], rfl⟩

theorem Outcome.defined_step (h : Outcome c done p) (hs : g.Step p p') :
    ∀ before g' after d loc, done ++ [g] = before ++ g' :: after →
      g'.first = .ok (.definition d loc) →
      ∃ s, p'.catalogue.symbols.find? d.command = some s ∧
        (before.filterMap section?).getLast? = some s.owner ∧
        s.MadeFrom p'.catalogue d loc g'.run := by
  intro before g' after d loc hsplit hg'
  have howner : ∀ s : Symbol, (before.filterMap section?).getLast? = some s.owner →
      p'.catalogue.declaredAttributes s.owner = p.catalogue.declaredAttributes s.owner := by
    intro s hlast
    have hmem : s.owner ∈ done.filterMap section? := by
      have hbefore : before <+: done := by
        rcases append_singleton_eq hsplit with ⟨-, rfl, -⟩ | ⟨after', -, rfl⟩
        · exact List.prefix_rfl
        · exact List.prefix_append ..
      exact (hbefore.filterMap section?).subset (List.mem_of_getLast? hlast)
    obtain ⟨o, ho⟩ := h.declaration?_of_mem hmem
    rw [Catalogue.declaredAttributes, Catalogue.declaredAttributes, ho,
      step_declaration?_of_some hs ho]
  rcases append_singleton_eq hsplit with ⟨rfl, rfl, rfl⟩ | ⟨after', rfl, rfl⟩
  · obtain ⟨owner, s, hcurrent, hfind, rfl, hmade⟩ := step_defined hs hg'
    have hlast := h.current_eq.symm.trans hcurrent
    exact ⟨s, hfind, hlast,
      { hmade with attributes_overlaid := howner s hlast ▸ hmade.attributes_overlaid }⟩
  · obtain ⟨s, hfind, hlast, hmade⟩ := h.defined _ _ _ d loc rfl hg'
    obtain ⟨new, hnew, -⟩ := step_symbols hs
    refine ⟨s, ?_, hlast,
      { hmade with attributes_overlaid := howner s hlast ▸ hmade.attributes_overlaid }⟩
    rw [OrderedMap.find?_eq_some_iff, hnew]
    exact List.mem_append_left _ (OrderedMap.find?_eq_some_iff.1 hfind)

theorem Outcome.declared_step (h : Outcome c done p) (hs : g.Step p p') :
    ∀ g' ∈ done ++ [g], ∀ b : Block, g'.first = b.item → b.tag = Tag.declares →
      c.declaration? b.sectionName = none ∧
        ∃ description, sectionHead? b.content = some (b.sectionName, description) ∧
          p'.catalogue.declaration? b.sectionName =
            some ⟨description, attributesOf g'.run, b.loc⟩ := by
  intro g' hg' b hb htag
  rcases List.mem_append.1 hg' with hold | hnew
  · obtain ⟨hnone, description, hhead, ho⟩ := h.declared g' hold b hb htag
    exact ⟨hnone, description, hhead, step_declaration?_of_some hs ho⟩
  · obtain rfl := List.mem_singleton.1 hnew
    obtain ⟨hnone, hafter⟩ := step_declared hs hb htag
    refine ⟨?_, hafter⟩
    rw [← h.others]
    · exact hnone
    · intro hmem
      obtain ⟨o, ho⟩ := h.declaration?_of_mem hmem
      rw [ho] at hnone
      cases hnone

/-- A section that a group declares was not declared by the groups before. -/
theorem Outcome.section?_notMem (h : Outcome c done p) (hs : g.Step p p') {name : Text}
    (hname : g.section? = some name) :
    name ∉ done.filterMap section? := by
  intro hmem
  obtain ⟨o, ho⟩ := h.declaration?_of_mem hmem
  obtain ⟨b, hb, htag, rfl⟩ := section?_eq_some_iff.1 hname
  obtain ⟨hnone, -⟩ := step_declared hs hb htag
  rw [ho] at hnone
  cases hnone

theorem Outcome.step (h : Outcome c done p) (hs : g.Step p p') : Outcome c (done ++ [g]) p' where
  current_eq := by
    rw [step_current hs, List.filterMap_append]
    cases hname : g.section? with
    | none => simp [hname, h.current_eq]
    | some name => simp [hname]
  symbols_eq := by
    obtain ⟨old, hold, hcommands⟩ := h.symbols_eq
    obtain ⟨new, hnew, hcommand⟩ := step_symbols hs
    refine ⟨old ++ new, by rw [hnew, hold, List.append_assoc], ?_⟩
    rw [List.map_append, hcommands, hcommand, List.filterMap_append]
    cases hc : g.command? <;> simp [hc]
  defined := h.defined_step hs
  sections_eq := by
    obtain ⟨old, hold, hsub⟩ := h.sections_eq
    obtain ⟨new, hnew, hsub', -⟩ := step_keys hs
    refine ⟨old ++ new, by rw [hnew, hold, List.append_assoc], ?_⟩
    rw [List.filterMap_append]
    refine hsub.append (hsub'.trans ?_)
    cases hname : g.section? <;> simp [hname]
  names_nodup := by
    rw [List.filterMap_append]
    refine List.Nodup.append h.names_nodup ?_ ?_
    · cases hname : g.section? <;> simp [hname]
    · intro name hmem hnew
      have hname : g.section? = some name := by simpa using hnew
      exact h.section?_notMem hs hname hmem
  declared := h.declared_step hs
  others name hname := by
    rw [List.filterMap_append, List.mem_append, not_or] at hname
    rw [step_declaration? hs, h.others name hname.1]
    intro hg
    simp [hg] at hname
  floating_eq := by
    obtain ⟨old, hold, hfloat⟩ := h.floating_eq
    obtain ⟨new, hnew, hfloat'⟩ := step_warnings hs
    refine ⟨old ++ new, by rw [hnew, hold, List.append_assoc], ?_⟩
    rw [List.filterMap_append, hfloat, hfloat', List.filterMap_append]
    cases hf : g.floating? <;> simp [hf]

/-- **Reading groups makes of a catalogue what the groups say.** -/
theorem outcome {groups : List ItemGroup} (h : Reads ⟨c, none⟩ groups p) : Outcome c groups p := by
  have := Reads.induction (P := Outcome c) (fun _ _ _ _ hp hg => hp.step (step_of_read hg))
    (outcome_start c) h
  rwa [List.nil_append] at this

end Reads

end TexSymbols
