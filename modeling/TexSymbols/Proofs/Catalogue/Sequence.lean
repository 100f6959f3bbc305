import TexSymbols.Proofs.Catalogue.Inheritance

/-!
# Sections one after the other

As long as no name is reserved, the current section is the newest one, and no section is entered
again.  So symbols stand in the order of their sections.

* `Progress.InSequence` — the invariant; `InSequence.step` — every group that is read keeps it.
* `Catalogue.values_eq_flatMap` — after a run without reservations the symbols are those of the
  first section, then those of the second, and so on.
* `Catalogue.events` — the events of a run; `Catalogue.filterMap_command?_events` — the commands
  they define are those of the symbols.
-/

namespace TexSymbols

open ItemGroup

/-- What is added for the last key comes last. -/
theorem flatMap_concat_last {κ α : Type} [DecidableEq κ] {f : κ → List α} {keys : List κ} {k : κ}
    (hnodup : keys.Nodup) (hlast : keys.getLast? = some k) (x : α) :
    (keys.flatMap fun j => f j ++ if j = k then [x] else []) = keys.flatMap f ++ [x] := by
  obtain ⟨before, rfl⟩ := List.getLast?_eq_some_iff.1 hlast
  have hbefore : ∀ j ∈ before, (f j ++ if j = k then [x] else []) = f j := by
    intro j hj
    have hne : j ≠ k := by
      rintro rfl
      exact (List.nodup_append'.1 hnodup).2.2 hj (List.mem_singleton_self j)
    rw [if_neg hne, List.append_nil]
  rw [List.flatMap_append, List.flatMap_append, List.flatMap_congr hbefore]
  simp

namespace Progress

variable {p p' : Progress} {g : ItemGroup}

/-- Every section is declared, the current one is the last, and the symbols stand in the order of
their sections. -/
structure InSequence (p : Progress) : Prop where
  declared : ∀ name ∈ p.catalogue.sections.keys, p.catalogue.Declares name
  current_last : ∀ name ∈ p.current, p.catalogue.sections.keys.getLast? = some name
  values_eq : p.catalogue.symbols.values = p.catalogue.sections.keys.flatMap p.catalogue.ownedBy

theorem InSequence.warn (h : p.InSequence) (ws : List Warning) : (p.warn ws).InSequence :=
  ⟨h.declared, h.current_last, h.values_eq⟩

/-- There is nothing to complete, so a declaration adds a section. -/
theorem InSequence.declare (h : p.InSequence) (hp : p.Sound) {c : Catalogue} {name : Text}
    {d : Declaration} (hdec : p.catalogue.declare name d = .ok c) :
    InSequence ⟨c, some name⟩ := by
  obtain ⟨hnone, ⟨hnew, rfl⟩ | ⟨⟨o, ho, -⟩, -⟩⟩ := Catalogue.declare_eq_ok hdec
  · have hkeys : (p.catalogue.addSection name (some d)).sections.keys =
        p.catalogue.sections.keys ++ [name] :=
      Catalogue.keys_declare_of_notMem hdec hnew
    refine ⟨?_, ?_, ?_⟩
    · intro other hother
      rw [hkeys, List.mem_append, List.mem_singleton] at hother
      rw [Catalogue.Declares, Catalogue.declaration?_addSection]
      split
      · rfl
      · rename_i hne
        exact h.declared other (hother.resolve_right hne)
    · intro other hother
      obtain rfl := Option.some.inj (Option.mem_def.1 hother)
      rw [hkeys, List.getLast?_concat]
    · have howned : p.catalogue.ownedBy name = [] := hp.wellFormed.ownedBy_eq_nil hnew
      rw [hkeys, List.flatMap_append, List.flatMap_singleton]
      refine h.values_eq.trans ?_
      exact (congrArg _ howned).trans (List.append_nil _) |>.symm
  · -- a section that is there was declared, and is not declared again
    have hdeclared := h.declared name (OrderedMap.find?_isSome_iff.1 (by rw [ho]; rfl))
    rw [Catalogue.Declares, hnone] at hdeclared
    cases hdeclared

/-- A symbol of the current section comes behind all others. -/
theorem InSequence.register (h : p.InSequence) {s : Symbol} (howner : p.current = some s.owner)
    (hnew : s.command ∉ p.catalogue.symbols.keys) :
    InSequence ⟨p.catalogue.register s, p.current⟩ := by
  have hkeys : (p.catalogue.register s).sections.keys = p.catalogue.sections.keys :=
    OrderedMap.keys_modify ..
  have hvalues : (p.catalogue.register s).symbols.values = p.catalogue.symbols.values ++ [s] :=
    OrderedMap.values_insert_of_notMem hnew _
  have howned : ∀ name, (p.catalogue.register s).ownedBy name =
      p.catalogue.ownedBy name ++ if name = s.owner then [s] else [] := by
    intro name
    rw [Catalogue.ownedBy, hvalues, List.filter_append]
    by_cases hname : name = s.owner <;> simp [Catalogue.ownedBy, hname, eq_comm]
  refine ⟨?_, ?_, ?_⟩
  · intro name hname
    rw [hkeys] at hname
    rw [Catalogue.Declares, Catalogue.declaration?_register]
    exact h.declared name hname
  · intro name hname
    rw [hkeys]
    exact h.current_last name hname
  · rw [hkeys, hvalues, h.values_eq, funext howned]
    exact (flatMap_concat_last p.catalogue.sections.nodup_keys
      (h.current_last s.owner howner) s).symm

theorem InSequence.step (h : p.InSequence) (hp : p.Sound) (hs : g.Step p p') : p'.InSequence := by
  cases hs with
  | passthrough => exact h
  | floating => exact h.warn _
  | declared _ _ _ hdec => exact (h.warn _).declare (hp.warn _) hdec
  | @defined d loc owner nomenclature _ howner _ hnew =>
    have hwarned := (h.warn (runWarnings p.catalogue.knownTags g.run)).warn
      ((Reader.inherited p.catalogue owner).disagreements d.command loc (attributesOf g.run))
    exact hwarned.register howner (OrderedMap.find?_eq_none.1 hnew)

theorem InSequence.reads {groups : List ItemGroup} (h : p.InSequence) (hp : p.Sound)
    (hr : Reads p groups p') : p'.InSequence := by
  have hboth : p'.Sound ∧ p'.InSequence := by
    refine hr.invariant (P := fun p => p.Sound ∧ p.InSequence) ?_ ⟨hp, h⟩
    intro g p p' hg hp
    have hs := step_of_read hg
    exact ⟨hp.1.step hs, hp.2.step hp.1 hs⟩
  exact hboth.2

end Progress

/-! ## Runs without reservations -/

/-- Whether the event is the definition of a symbol. -/
def Event.isDefined (event : Event) : Bool := event.command?.isSome

namespace Catalogue

variable {c : Catalogue}

/-- Whether the operation reserves a name. -/
def Operation.reserves : Operation → Bool
  | .reserve _ => true
  | _ => false

theorem inSequence_new (knownTags : List Text) : Progress.InSequence ⟨new knownTags, none⟩ :=
  ⟨by simp [new], fun _ h => (by cases h), rfl⟩

theorem inSequence_apply (hc : c.WellFormed) (h : Progress.InSequence ⟨c, none⟩) {op : Operation}
    (hop : op.reserves = false) : Progress.InSequence ⟨c.apply op, none⟩ := by
  cases op with
  | read file text pulls =>
    obtain ⟨done, p, hreads, -, -, hend⟩ := exists_reads c file text pulls
    have hdone := h.reads ⟨hc, fun name hname => by cases hname⟩ hreads
    have hprogress : (c.read file text pulls).reader.progress.InSequence := by
      rcases hend with hend | ⟨known, run, hend⟩
      · rw [hend]
        exact hdone
      · rw [hend]
        exact hdone.warn _
    exact ⟨hprogress.declared, fun name hname => (by cases hname), hprogress.values_eq⟩
  | reserve name => cases hop
  | link =>
    have hkeys : c.link.sections.keys = c.sections.keys := OrderedMap.keys_mapValues ..
    refine ⟨?_, fun name hname => (by cases hname), ?_⟩
    · intro name hname
      have hname' : name ∈ c.sections.keys := hkeys ▸ hname
      have hdeclared := h.declared name hname'
      rwa [Declares, ← declaration?_link] at hdeclared
    · show c.symbols.values = c.link.sections.keys.flatMap c.ownedBy
      rw [hkeys]
      exact h.values_eq

theorem inSequence_run (hc : c.WellFormed) (h : Progress.InSequence ⟨c, none⟩)
    {operations : List Operation} (hops : ∀ op ∈ operations, op.reserves = false) :
    Progress.InSequence ⟨c.run operations, none⟩ := by
  induction operations generalizing c with
  | nil => exact h
  | cons op operations ih =>
    rw [List.forall_mem_cons] at hops
    exact ih (hc.apply op) (inSequence_apply hc h hops.1) hops.2

/-- **The symbols stand in the order of their sections**, as long as no name is reserved. -/
theorem values_eq_flatMap (knownTags : List Text) {operations : List Operation}
    (hops : ∀ op ∈ operations, op.reserves = false) :
    ((new knownTags).run operations).symbols.values =
      ((new knownTags).run operations).sections.values.flatMap
        ((new knownTags).run operations).symbolsOf := by
  have hc := (wellFormed_new knownTags).run operations
  have hsequence := inSequence_run (wellFormed_new knownTags) (inSequence_new knownTags) hops
  generalize (new knownTags).run operations = c at hc hsequence
  calc c.symbols.values
      = c.sections.keys.flatMap c.ownedBy := hsequence.values_eq
    _ = c.sections.values.flatMap fun o => c.ownedBy o.name := by
        rw [← hc.names_eq_keys, List.flatMap_map]
    _ = c.sections.values.flatMap c.symbolsOf :=
      List.flatMap_congr fun o ho => (hc.symbolsOf_eq ho).symm

/-! ## Events -/

def eventsOf (c : Catalogue) : Operation → List Event
  | .read file text pulls => (c.read file text pulls).events
  | .reserve _ => []
  | .link => []

/-- The events of a run, in order. -/
def events (c : Catalogue) : List Operation → List Event
  | [] => []
  | op :: operations => c.eventsOf op ++ (c.apply op).events operations

theorem filterMap_event?_history (c : Catalogue) (operations : List Operation) :
    (c.history operations).filterMap event? = c.events operations := by
  induction operations generalizing c with
  | nil => rfl
  | cons op operations ih =>
    rw [history, List.filterMap_append, ih, events]
    cases op with
    | read file text pulls => rw [events_eq, eventsOf]
    | reserve name => rfl
    | link => rfl

/-- The commands that the events define are those of the symbols, in order. -/
theorem filterMap_command?_events (knownTags : List Text) (operations : List Operation) :
    ((new knownTags).events operations).filterMap Event.command? =
      ((new knownTags).run operations).symbols.keys := by
  rw [(historyInvariant_recorded.run knownTags operations).commands_eq,
    ← filterMap_event?_history, List.filterMap_filterMap]
  rfl

end Catalogue

end TexSymbols
