import TexSymbols.Proofs.Catalogue.Hierarchy
import TexSymbols.Proofs.Catalogue.Search

/-!
# Which symbols a document needs, and in which order

* `WellFormed.closure_eq_filter` — the closure holds the symbols whose commands are reached, in the
  order of the catalogue.
* `Catalogue.Closure` — what the search and its result come to; `closure_run` — after every run.
* `DefinedBeforeUse` — every symbol stands behind those that its body uses.
* `Catalogue.UseOrder` — when that is so, and where definitions stand in the file;
  `useOrder_run` — after every run.
-/

namespace TexSymbols

/-- In a list with increasing numbers the smaller number comes first. -/
theorem pair_sublist_iff_lt {α : Type} {f : α → Nat} {l : List α} {a b : α}
    (h : (l.map f).Pairwise (· < ·)) (ha : a ∈ l) (hb : b ∈ l) :
    [a, b].Sublist l ↔ f a < f b := by
  constructor
  · intro hpair
    exact List.pairwise_pair.1 (h.sublist (hpair.map f))
  · intro hlt
    induction l with
    | nil => cases ha
    | cons x l ih =>
      rw [List.map_cons, List.pairwise_cons] at h
      rw [pair_sublist_cons_iff]
      rcases List.mem_cons.1 hb with rfl | hb'
      · -- what comes first has the least number
        rcases List.mem_cons.1 ha with rfl | ha'
        · exact absurd hlt (Nat.lt_irrefl _)
        · exact absurd (h.1 _ (List.mem_map_of_mem ha')) (Nat.lt_asymm hlt)
      · rcases List.mem_cons.1 ha with rfl | ha'
        · exact .inl ⟨rfl, hb'⟩
        · exact .inr (ih h.2 ha' hb')

namespace Catalogue

variable {c : Catalogue} {used : List Text} {s t : Symbol}

/-- The order of definition, in which a closure is sorted. -/
def byOrder (a b : Symbol) : Bool := a.order ≤ b.order

theorem pairwise_closure (c : Catalogue) (used : List Text) :
    (c.closure used).Pairwise fun a b => byOrder a b = true := by
  refine List.pairwise_mergeSort ?_ ?_ _
  · intro a b d hab hbd
    simp only [byOrder, decide_eq_true_eq] at hab hbd ⊢
    omega
  · intro a b
    simp only [byOrder, Bool.or_eq_true, decide_eq_true_eq]
    omega

namespace WellFormed

/-- A number belongs to one symbol. -/
theorem symbol_unique (hc : c.WellFormed) (hs : s ∈ c.symbols.values) (ht : t ∈ c.symbols.values)
    (h : s.order = t.order) : s = t := by
  have hnodup : (c.symbols.values.map Symbol.order).Nodup :=
    hc.symbols_increasing.imp fun hlt => Nat.ne_of_lt hlt
  exact List.inj_on_of_nodup_map hnodup hs ht h

theorem mem_found_iff (hc : c.WellFormed) {q : Search} (hq : Search.Sound c used q)
    (hend : q.stack = []) :
    s ∈ q.found ↔ s ∈ c.symbols.values ∧ c.Reaches used s.command := by
  rw [hq.found_eq, List.mem_filterMap]
  constructor
  · rintro ⟨command, hcommand, hs⟩
    obtain ⟨hmem, rfl⟩ := hc.find?_eq_some_iff.1 hs
    exact ⟨hmem, (hq.mem_seen_iff hend).1 (List.mem_reverse.1 hcommand)⟩
  · rintro ⟨hmem, hreaches⟩
    have hseen := (hq.mem_seen_iff hend).2 hreaches
    exact ⟨s.command, List.mem_reverse.2 hseen, hc.find?_command hmem⟩

theorem nodup_found (hc : c.WellFormed) {q : Search} (hq : Search.Sound c used q) :
    q.found.Nodup := by
  have hfound : ∀ found : List Text, found.Nodup →
      (found.filterMap c.symbols.find?).Nodup := by
    intro found hnodup
    refine hnodup.filterMap fun first second s hfirst hsecond => ?_
    rw [← (hc.find?_eq_some_iff.1 hfirst).2, ← (hc.find?_eq_some_iff.1 hsecond).2]
  rw [hq.found_eq]
  exact hfound _ (List.nodup_reverse.2 hq.seen_nodup)

open scoped Classical in
/-- **The closure holds the symbols that are reached**, in the order of the catalogue. -/
theorem closure_eq_filter (hc : c.WellFormed) (used : List Text) :
    c.closure used = c.symbols.values.filter fun s => c.Reaches used s.command := by
  obtain ⟨q, hrounds, hend, hfound⟩ := hc.exists_rounds used
  have hq := (Search.sound_start c used).rounds hc hrounds
  have hvalues : c.symbols.values.Pairwise fun a b => byOrder a b = true :=
    (List.pairwise_map.1 hc.symbols_increasing).imp fun hlt => decide_eq_true (Nat.le_of_lt hlt)
  have hmem : ∀ s, s ∈ q.found ↔
      s ∈ c.symbols.values.filter fun s => c.Reaches used s.command := by
    intro s
    rw [hc.mem_found_iff hq hend, List.mem_filter, decide_eq_true_eq]
  -- both sides are in the order of definition, so it is enough that they hold the same symbols
  have hperm : (c.closure used).Perm
      (c.symbols.values.filter fun s => c.Reaches used s.command) := by
    rw [closure, ← hfound]
    refine (List.mergeSort_perm _ _).trans ?_
    refine (List.perm_ext_iff_of_nodup (hc.nodup_found hq) ?_).2 hmem
    exact ((List.Nodup.of_map _ hc.commands_nodup).sublist List.filter_sublist)
  refine hperm.eq_of_pairwise ?_ (pairwise_closure c used) (hvalues.sublist List.filter_sublist)
  intro a b ha hb hab hba
  have ha' := List.mem_of_mem_filter (hperm.mem_iff.1 ha)
  have hb' := List.mem_of_mem_filter hb
  simp only [byOrder, decide_eq_true_eq] at hab hba
  exact hc.symbol_unique ha' hb' (Nat.le_antisymm hab hba)

theorem mem_closure_iff (hc : c.WellFormed) :
    s ∈ c.closure used ↔ s ∈ c.symbols.values ∧ c.Reaches used s.command := by
  classical
  rw [hc.closure_eq_filter, List.mem_filter, decide_eq_true_eq]

theorem closure_sublist (hc : c.WellFormed) : (c.closure used).Sublist c.symbols.values := by
  classical
  rw [hc.closure_eq_filter]
  exact List.filter_sublist

theorem closure_increasing (hc : c.WellFormed) :
    ((c.closure used).map Symbol.order).Pairwise (· < ·) :=
  hc.symbols_increasing.sublist (hc.closure_sublist.map _)

theorem closure_congr (hc : c.WellFormed) {used' : List Text}
    (h : ∀ command, command ∈ used' ↔ command ∈ used) : c.closure used' = c.closure used := by
  classical
  rw [hc.closure_eq_filter, hc.closure_eq_filter]
  refine List.filter_congr fun s _ => ?_
  rw [reaches_congr h]

end WellFormed

/-! ## What is reached -/

/-- How the search for the symbols of `used` ends, and what comes of it. -/
structure Closure (c : Catalogue) (used : List Text) : Prop where
  /-- After some rounds nothing waits, and the symbols found are those of the closure. -/
  ends : ∃ q, Relation.ReflTransGen (Search.Round c) (.start used) q ∧ q.next c = none ∧
    q.found.Perm (c.closure used)
  mem_iff : ∀ s, s ∈ c.closure used ↔ s ∈ c.symbols.values ∧ c.Reaches used s.command
  nodup : (c.closure used).Nodup
  increasing : ((c.closure used).map Symbol.order).Pairwise (· < ·)
  /-- What is reached does not refer to anything else that the catalogue holds. -/
  closed : ∀ s ∈ c.closure used, ∀ t ∈ c.symbols.values, t.command ∈ commands s.body →
    t ∈ c.closure used
  /-- The order of the used commands and their repetitions do not matter. -/
  eq_of_same : ∀ used', (∀ command, command ∈ used' ↔ command ∈ used) →
    c.closure used' = c.closure used

theorem WellFormed.closed (hc : c.WellFormed) (hs : s ∈ c.closure used)
    (ht : t ∈ c.symbols.values) (h : t.command ∈ commands s.body) : t ∈ c.closure used := by
  obtain ⟨hmem, hreaches⟩ := hc.mem_closure_iff.1 hs
  exact hc.mem_closure_iff.2 ⟨ht, hreaches.tail ⟨s, hmem, rfl, h⟩⟩

theorem WellFormed.closure_ends (hc : c.WellFormed) (used : List Text) :
    ∃ q, Relation.ReflTransGen (Search.Round c) (.start used) q ∧ q.next c = none ∧
      q.found.Perm (c.closure used) := by
  obtain ⟨q, hrounds, hend, hfound⟩ := hc.exists_rounds used
  refine ⟨q, hrounds, ?_, ?_⟩
  · rw [Search.next, hend]
  · rw [closure, ← hfound]
    exact (List.mergeSort_perm _ _).symm

/-- **The closure is what is reached, after every run.** -/
theorem closure_run (knownTags : List Text) (operations : List Operation) (used : List Text) :
    ((new knownTags).run operations).Closure used := by
  have hc := (wellFormed_new knownTags).run operations
  exact
    { ends := hc.closure_ends used
      mem_iff := fun _ => hc.mem_closure_iff
      nodup := (List.Nodup.of_map _ hc.commands_nodup).sublist hc.closure_sublist
      increasing := hc.closure_increasing
      closed := fun _ hs _ ht h => hc.closed hs ht h
      eq_of_same := fun _ h => hc.closure_congr h }

end Catalogue

/-! ## Definitions and uses -/

/-- Every symbol stands behind those whose commands its body uses, itself apart. -/
def DefinedBeforeUse (symbols : List Symbol) : Prop :=
  ∀ s ∈ symbols, ∀ t ∈ symbols, t ≠ s → t.command ∈ commands s.body → [t, s].Sublist symbols

instance (symbols : List Symbol) : Decidable (DefinedBeforeUse symbols) :=
  inferInstanceAs (Decidable (∀ s ∈ symbols, ∀ t ∈ symbols, t ≠ s →
    t.command ∈ commands s.body → [t, s].Sublist symbols))

theorem definitions_append (symbols more : List Symbol) :
    definitions (symbols ++ more) = definitions symbols ++ definitions more :=
  List.flatMap_append

theorem definitions_cons (s : Symbol) (symbols : List Symbol) :
    definitions (s :: symbols) = s.texDefinition ++ "\n" ++ definitions symbols :=
  List.flatMap_cons

namespace Catalogue

variable {c : Catalogue} {used : List Text} {s t : Symbol}

/-- Where the symbols of a closure stand, and their definitions. -/
structure UseOrder (c : Catalogue) (used : List Text) : Prop where
  /-- Of two symbols that are needed, the one that was defined first comes first. -/
  before_iff : ∀ s ∈ c.closure used, ∀ t ∈ c.closure used,
    ([t, s].Sublist (c.closure used) ↔ t.order < s.order)
  /-- So definitions come before uses exactly if no body that is needed uses a symbol defined
  later. -/
  definedBeforeUse_iff : DefinedBeforeUse (c.closure used) ↔
    ∀ s ∈ c.symbols.values, c.Reaches used s.command →
      ∀ t ∈ c.symbols.values, t ≠ s → t.command ∈ commands s.body → t.order < s.order
  /-- In the file there stand before a definition those of the symbols that were defined before. -/
  definitions_eq : ∀ before s after, c.closure used = before ++ s :: after →
    definitions (c.closure used) =
      definitions before ++ (s.texDefinition ++ "\n" ++ definitions after) ∧
    ∀ t ∈ c.closure used, t ∈ before ↔ t.order < s.order

theorem WellFormed.before_iff (hc : c.WellFormed) (hs : s ∈ c.closure used)
    (ht : t ∈ c.closure used) : [t, s].Sublist (c.closure used) ↔ t.order < s.order :=
  pair_sublist_iff_lt hc.closure_increasing ht hs

theorem WellFormed.mem_before_iff (hc : c.WellFormed) {before after : List Symbol}
    (h : c.closure used = before ++ s :: after) (ht : t ∈ c.closure used) :
    t ∈ before ↔ t.order < s.order := by
  have hincreasing : ((c.closure used).map Symbol.order).Pairwise (· < ·) :=
    hc.closure_increasing
  rw [h, List.map_append, List.pairwise_append, List.map_cons, List.pairwise_cons] at hincreasing
  obtain ⟨-, ⟨hafter, -⟩, hbefore⟩ := hincreasing
  constructor
  · intro hmem
    exact hbefore _ (List.mem_map_of_mem hmem) _ List.mem_cons_self
  · intro hlt
    rw [h, List.mem_append, List.mem_cons] at ht
    rcases ht with hmem | rfl | hmem
    · exact hmem
    · exact absurd hlt (Nat.lt_irrefl _)
    · exact absurd (hafter _ (List.mem_map_of_mem hmem)) (Nat.lt_asymm hlt)

theorem WellFormed.definedBeforeUse_iff (hc : c.WellFormed) :
    DefinedBeforeUse (c.closure used) ↔
      ∀ s ∈ c.symbols.values, c.Reaches used s.command →
        ∀ t ∈ c.symbols.values, t ≠ s → t.command ∈ commands s.body → t.order < s.order := by
  constructor
  · intro h s hs hreaches t ht hne huse
    have hs' := hc.mem_closure_iff.2 ⟨hs, hreaches⟩
    have ht' := hc.closed hs' ht huse
    exact (hc.before_iff hs' ht').1 (h s hs' t ht' hne huse)
  · intro h s hs t ht hne huse
    obtain ⟨hmem, hreaches⟩ := hc.mem_closure_iff.1 hs
    have hlt := h s hmem hreaches t (hc.mem_closure_iff.1 ht).1 hne huse
    exact (hc.before_iff hs ht).2 hlt

/-- **When definitions come before uses, after every run.** -/
theorem useOrder_run (knownTags : List Text) (operations : List Operation) (used : List Text) :
    ((new knownTags).run operations).UseOrder used := by
  have hc := (wellFormed_new knownTags).run operations
  refine ⟨fun s hs t ht => hc.before_iff hs ht, hc.definedBeforeUse_iff, ?_⟩
  intro before s after h
  refine ⟨?_, fun t ht => hc.mem_before_iff h ht⟩
  rw [h, definitions_append, definitions_cons]

/-- A symbol whose body uses one that is defined on the line below. -/
def forwardReference : List Operation :=
  [.read "t.tex" ("%:section:s : S\n" ++
    "\\newcommand\x7b\\a\x7d\x7b\\b\x7d\n\\newcommand\x7b\\b\x7d\x7bx\x7d\n") none]

/-- Then the definition does not come before the use. -/
theorem not_definedBeforeUse :
    ¬ DefinedBeforeUse (((new []).run forwardReference).closure ["\\a"]) := by
  have hc := (wellFormed_new []).run forwardReference
  obtain ⟨s, hs, t, ht, hcommand, huse, hne, hnot⟩ :
      ∃ s ∈ ((new []).run forwardReference).symbols.values,
        ∃ t ∈ ((new []).run forwardReference).symbols.values,
          s.command = ("\\a" : Text) ∧ t.command ∈ commands s.body ∧ t ≠ s ∧
            ¬ t.order < s.order := by
    decide +kernel
  have hreaches : ((new []).run forwardReference).Reaches ["\\a"] s.command :=
    .of_mem (List.mem_singleton.2 hcommand)
  exact fun h => hnot (hc.definedBeforeUse_iff.1 h s hs hreaches t ht hne huse)

end Catalogue

end TexSymbols
