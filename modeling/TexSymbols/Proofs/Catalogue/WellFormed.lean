import TexSymbols.Proofs.Catalogue.Operations

/-!
# Well-formed catalogues

* `Catalogue.WellFormed` — names, members and numbers of a catalogue are in step.
* `WellFormed.warn`, `addSection`, `mapSections`, `register` — every operation keeps them so.
* `WellFormed.reserve`, `declare`, `link` — the operations of a run, assembled from these.
-/

namespace TexSymbols

namespace Catalogue

variable {c c' : Catalogue} {name : Text}

/-- The numbers of all sections, and behind them those of all symbols. -/
def orders (c : Catalogue) : List Nat :=
  c.sections.values.map Section.order ++ c.symbols.values.map Symbol.order

/-- The symbols that say they belong to the section `name`. -/
def ownedBy (c : Catalogue) (name : Text) : List Symbol := c.symbols.values.filter (·.owner = name)

/-- Their commands. -/
def membersOf (c : Catalogue) (name : Text) : List Text := (c.ownedBy name).map fun s => s.command

/-- Names, members and numbers are in step. -/
structure WellFormed (c : Catalogue) : Prop where
  section_named : ∀ e ∈ c.sections.entries, e.2.name = e.1
  symbol_named : ∀ e ∈ c.symbols.entries, e.2.command = e.1
  /-- A symbol belongs to a section that is declared. -/
  owner_declared : ∀ s ∈ c.symbols.values, c.Declares s.owner
  /-- A section lists the commands of its symbols. -/
  members_eq : ∀ o ∈ c.sections.values, o.symbols = c.membersOf o.name
  nextOrder_eq : c.nextOrder = c.sections.size + c.symbols.size
  /-- The numbers up to the next one are each used once. -/
  orders_perm : c.orders.Perm (List.range c.nextOrder)
  sections_increasing : (c.sections.values.map Section.order).Pairwise (· < ·)
  symbols_increasing : (c.symbols.values.map Symbol.order).Pairwise (· < ·)
  section_lt_symbol : ∀ o ∈ c.sections.values, ∀ s ∈ c.symbols.values, s.owner = o.name →
    o.order < s.order

theorem wellFormed_new (knownTags : List Text) : (new knownTags).WellFormed where
  section_named := by simp [new]
  symbol_named := by simp [new]
  owner_declared := by simp [new]
  members_eq := by simp [new]
  nextOrder_eq := rfl
  orders_perm := .refl _
  sections_increasing := .nil
  symbols_increasing := .nil
  section_lt_symbol := by simp [new]

/-- One more number can stand anywhere. -/
theorem perm_range_succ {xs : List Nat} {n : Nat} (ys : List Nat)
    (h : (xs ++ ys).Perm (List.range n)) :
    (xs ++ [n] ++ ys).Perm (List.range (n + 1)) := by
  rw [List.range_succ, List.append_assoc, List.singleton_append]
  exact List.perm_middle.trans ((h.cons n).trans (List.perm_append_singleton ..).symm)

/-- A declared section is there. -/
theorem mem_keys_of_declares (h : c.Declares name) : name ∈ c.sections.keys := by
  obtain ⟨o, ho, -⟩ := declares_iff.1 h
  exact OrderedMap.find?_isSome_iff.1 (by rw [ho]; rfl)

namespace WellFormed

theorem section_order_lt (h : c.WellFormed) {o : Section} (ho : o ∈ c.sections.values) :
    o.order < c.nextOrder := by
  have hmem : o.order ∈ c.orders := List.mem_append_left _ (List.mem_map_of_mem ho)
  exact List.mem_range.1 (h.orders_perm.mem_iff.1 hmem)

theorem symbol_order_lt (h : c.WellFormed) {s : Symbol} (hs : s ∈ c.symbols.values) :
    s.order < c.nextOrder := by
  have hmem : s.order ∈ c.orders := List.mem_append_right _ (List.mem_map_of_mem hs)
  exact List.mem_range.1 (h.orders_perm.mem_iff.1 hmem)

/-- No symbol belongs to a section that is not there. -/
theorem ownedBy_eq_nil (h : c.WellFormed) (hname : name ∉ c.sections.keys) :
    c.ownedBy name = [] := by
  rw [ownedBy, List.filter_eq_nil_iff]
  intro s hs howner
  have hdeclared := h.owner_declared s hs
  rw [of_decide_eq_true howner] at hdeclared
  exact hname (mem_keys_of_declares hdeclared)

theorem warn (h : c.WellFormed) (ws : List Warning) : (c.warn ws).WellFormed := { h with }

/-- A new section gets the next number. -/
theorem addSection (h : c.WellFormed) (hname : name ∉ c.sections.keys) (d : Option Declaration) :
    (c.addSection name d).WellFormed := by
  have hvalues : (c.addSection name d).sections.values =
      c.sections.values ++ [⟨name, c.nextOrder, d, [], []⟩] :=
    OrderedMap.values_insert_of_notMem hname _
  refine ⟨?_, h.symbol_named, ?_, ?_, ?_, ?_, ?_, h.symbols_increasing, ?_⟩
  · intro e he
    rw [show (c.addSection name d).sections.entries = _ from
      OrderedMap.entries_insert_of_notMem hname _] at he
    rcases List.mem_append.1 he with hold | hnew
    · exact h.section_named e hold
    · rw [List.mem_singleton.1 hnew]
  · intro s hs
    have hdeclared := h.owner_declared s hs
    have hne : s.owner ≠ name := fun heq => hname (heq ▸ mem_keys_of_declares hdeclared)
    rw [Declares, declaration?_addSection, if_neg hne]
    exact hdeclared
  · intro o ho
    rw [hvalues] at ho
    rcases List.mem_append.1 ho with hold | hnew
    · exact h.members_eq o hold
    · rw [List.mem_singleton.1 hnew]
      show [] = c.membersOf name
      rw [membersOf, h.ownedBy_eq_nil hname, List.map_nil]
  · have hsections : (c.addSection name d).sections.size = c.sections.size + 1 :=
      OrderedMap.size_insert_of_notMem hname _
    have hsymbols : (c.addSection name d).symbols.size = c.symbols.size := rfl
    have hnext : (c.addSection name d).nextOrder = c.nextOrder + 1 := rfl
    have hold := h.nextOrder_eq
    omega
  · rw [orders, hvalues, List.map_append]
    exact perm_range_succ _ h.orders_perm
  · rw [hvalues, List.map_append, List.pairwise_append]
    refine ⟨h.sections_increasing, List.pairwise_singleton .., ?_⟩
    intro i hi j hj
    obtain ⟨o, ho, rfl⟩ := List.mem_map.1 hi
    rw [List.mem_singleton.1 hj]
    exact h.section_order_lt ho
  · intro o ho s hs howner
    rw [hvalues] at ho
    rcases List.mem_append.1 ho with hold | hnew
    · exact h.section_lt_symbol o hold s hs howner
    · rw [List.mem_singleton.1 hnew] at howner
      have hdeclared := h.owner_declared s hs
      rw [howner] at hdeclared
      exact absurd (mem_keys_of_declares hdeclared) hname

/-- A change of the sections that leaves names, members and numbers alone, and takes back no
declaration. -/
theorem mapSections (h : c.WellFormed) {f : Text → Section → Section}
    (hname : ∀ k o, (f k o).name = o.name)
    (horder : ∀ k o, (f k o).order = o.order) (hsymbols : ∀ k o, (f k o).symbols = o.symbols)
    (hdeclared : ∀ k o, o.declaration.isSome → (f k o).declaration.isSome) :
    WellFormed { c with sections := c.sections.mapValues f } := by
  have horders : (c.sections.mapValues f).values.map Section.order =
      c.sections.values.map Section.order :=
    OrderedMap.values_map_mapValues horder _
  have hmem : ∀ o ∈ (c.sections.mapValues f).values,
      ∃ o' ∈ c.sections.values, o.name = o'.name ∧ o.order = o'.order ∧ o.symbols = o'.symbols := by
    intro o ho
    rw [OrderedMap.values_mapValues] at ho
    obtain ⟨e, he, rfl⟩ := List.mem_map.1 ho
    exact ⟨e.2, List.mem_map_of_mem he, hname .., horder .., hsymbols ..⟩
  refine ⟨?_, h.symbol_named, ?_, ?_, ?_, ?_, ?_, h.symbols_increasing, ?_⟩
  · intro e he
    obtain ⟨e', he', rfl⟩ := List.mem_map.1 he
    rw [hname, h.section_named e' he']
  · intro s hs
    have hs' := h.owner_declared s hs
    rw [Declares, declaration?] at hs' ⊢
    rw [OrderedMap.find?_mapValues]
    cases hf : c.sections.find? s.owner with
    | none => rw [hf] at hs'; cases hs'
    | some o => rw [hf] at hs'; exact hdeclared _ _ hs'
  · intro o ho
    obtain ⟨o', ho', hn, -, hs⟩ := hmem o ho
    rw [hs, hn]
    exact h.members_eq o' ho'
  · rw [OrderedMap.size_mapValues]
    exact h.nextOrder_eq
  · rw [orders, horders]
    exact h.orders_perm
  · rw [horders]
    exact h.sections_increasing
  · intro o ho s hs howner
    obtain ⟨o', ho', hn, hlt, -⟩ := hmem o ho
    rw [hlt]
    exact h.section_lt_symbol o' ho' s hs (howner.trans hn)

/-- Registering a symbol adds its command to the section that owns it, and changes no other
section. -/
theorem sections_register (h : c.WellFormed) (s : Symbol) {k : Text} {o : Section}
    (ho : (k, o) ∈ (c.register s).sections.entries) :
    ∃ o', (k, o') ∈ c.sections.entries ∧ o.name = o'.name ∧ o.order = o'.order ∧
      (o'.name = s.owner ∧ o.symbols = o'.symbols ++ [s.command] ∨
        o'.name ≠ s.owner ∧ o.symbols = o'.symbols) := by
  obtain ⟨o', ho', rfl⟩ := OrderedMap.mem_entries_modify.1 ho
  have hname : o'.name = k := h.section_named _ ho'
  refine ⟨o', ho', ?_⟩
  by_cases hk : k = s.owner
  · rw [if_pos hk]
    exact ⟨rfl, rfl, .inl ⟨hname.trans hk, rfl⟩⟩
  · rw [if_neg hk]
    exact ⟨rfl, rfl, .inr ⟨hname ▸ hk, rfl⟩⟩

/-- A new symbol of a declared section gets the next number. -/
theorem register (h : c.WellFormed) {s : Symbol} (hnew : s.command ∉ c.symbols.keys)
    (howner : c.Declares s.owner)
    (horder : s.order = c.nextOrder) : (c.register s).WellFormed := by
  have hvalues : (c.register s).symbols.values = c.symbols.values ++ [s] :=
    OrderedMap.values_insert_of_notMem hnew _
  have hnumbers : (c.register s).symbols.values.map Symbol.order =
      c.symbols.values.map Symbol.order ++ [c.nextOrder] := by
    rw [hvalues, List.map_append, List.map_singleton, horder]
  have horders : (c.register s).sections.values.map Section.order =
      c.sections.values.map Section.order := by
    unfold Catalogue.register
    apply OrderedMap.values_map_modify
    intro o
    rfl
  refine ⟨?_, ?_, ?_, ?_, ?_, ?_, ?_, ?_, ?_⟩
  · intro e he
    obtain ⟨o', ho', hname, -⟩ := h.sections_register s he
    rw [hname]
    exact h.section_named _ ho'
  · intro e he
    rw [show (c.register s).symbols.entries = _ from
      OrderedMap.entries_insert_of_notMem hnew _] at he
    rcases List.mem_append.1 he with hold | hlast
    · exact h.symbol_named e hold
    · rw [List.mem_singleton.1 hlast]
  · intro t ht
    rw [hvalues] at ht
    rw [Declares, declaration?_register]
    rcases List.mem_append.1 ht with hold | hlast
    · exact h.owner_declared t hold
    · rw [List.mem_singleton.1 hlast]
      exact howner
  · intro o ho
    obtain ⟨k, hk⟩ := OrderedMap.mem_values.1 ho
    obtain ⟨o', ho', hname, -, hsymbols⟩ := h.sections_register s hk
    have hold := h.members_eq o' (OrderedMap.mem_values.2 ⟨k, ho'⟩)
    rw [membersOf, ownedBy, hvalues, List.filter_append, List.map_append, hname]
    rcases hsymbols with ⟨heq, hsymbols⟩ | ⟨hne, hsymbols⟩
    · rw [hsymbols, hold, membersOf, ownedBy]
      simp [heq]
    · rw [hsymbols, hold, membersOf, ownedBy]
      simp [Ne.symm hne]
  · have hsections : (c.register s).sections.size = c.sections.size := OrderedMap.size_modify ..
    have hsymbols : (c.register s).symbols.size = c.symbols.size + 1 :=
      OrderedMap.size_insert_of_notMem hnew _
    have hnext : (c.register s).nextOrder = c.nextOrder + 1 := rfl
    have hold := h.nextOrder_eq
    omega
  · rw [orders, horders, hnumbers, ← List.append_assoc]
    have hperm := perm_range_succ [] ((List.append_nil c.orders).symm ▸ h.orders_perm)
    rw [List.append_nil] at hperm
    exact hperm
  · rw [horders]
    exact h.sections_increasing
  · rw [hnumbers, List.pairwise_append]
    refine ⟨h.symbols_increasing, List.pairwise_singleton .., ?_⟩
    intro i hi j hj
    obtain ⟨t, ht, rfl⟩ := List.mem_map.1 hi
    rw [List.mem_singleton.1 hj]
    exact h.symbol_order_lt ht
  · intro o ho t ht hto
    obtain ⟨k, hk⟩ := OrderedMap.mem_values.1 ho
    obtain ⟨o', ho', hname, horder', -⟩ := h.sections_register s hk
    have hmem : o' ∈ c.sections.values := OrderedMap.mem_values.2 ⟨k, ho'⟩
    rw [horder']
    rw [hvalues] at ht
    rcases List.mem_append.1 ht with hold | hlast
    · exact h.section_lt_symbol o' hmem t hold (hto.trans hname)
    · rw [List.mem_singleton.1 hlast, horder]
      exact h.section_order_lt hmem

/-! ## The operations of a run -/

theorem reserve (h : c.WellFormed) (name : Text) : (c.reserve name).WellFormed := by
  unfold Catalogue.reserve
  split
  · exact h
  · rename_i hname
    exact h.addSection (by simpa using hname) none

theorem declare {d : Declaration} (h : c.WellFormed) (hc : c.declare name d = .ok c') :
    c'.WellFormed := by
  obtain ⟨-, ⟨hnew, rfl⟩ | ⟨-, rfl⟩⟩ := declare_eq_ok hc
  · exact h.addSection hnew _
  · refine h.mapSections ?_ ?_ ?_ ?_ <;> intro k o <;> split <;> simp

theorem link (h : c.WellFormed) : c.link.WellFormed :=
  h.mapSections (fun _ _ => rfl) (fun _ _ => rfl) (fun _ _ => rfl) fun _ _ ho => ho

end WellFormed

end Catalogue

end TexSymbols
