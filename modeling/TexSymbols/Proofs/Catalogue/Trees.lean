import TexSymbols.Proofs.Catalogue.Closure
import TexSymbols.Proofs.Catalogue.Families

/-!
# One tree of sections after the other

* `topmost` — the sections that are below no other one.
* `families_eq_map` — if no section comes before one that it is below, the groups in the order with
  parents first are whole trees: a topmost section and everything below it.
* `Catalogue.TreeOrder` — the order of the sections of a catalogue, in general and if sections came
  in order; `treeOrder_run` — after every run.
-/

namespace TexSymbols

open Section

variable {p s t x : Section} {sections rest : List Section}

/-! ## Topmost sections -/

/-- The sections that are below no other one. -/
def topmost (sections : List Section) : List Section :=
  sections.filter fun s => ∀ t ∈ sections, s.isBelow t = false

/-- Every section comes after all sections that it is below. -/
def ComeInOrder (sections : List Section) : Prop :=
  ∀ p ∈ sections, ∀ s ∈ sections, s.isBelow p = true → [p, s].Sublist sections

theorem mem_topmost :
    s ∈ topmost sections ↔ s ∈ sections ∧ ∀ t ∈ sections, s.isBelow t = false := by
  simp [topmost]

/-- The first section is topmost. -/
theorem ComeInOrder.isBelow_first (h : ComeInOrder (x :: rest)) (hx : x ∉ rest) :
    ∀ t ∈ x :: rest, x.isBelow t = false := by
  intro t ht
  rw [Bool.eq_false_iff]
  intro hbelow
  exact not_pair_sublist_cons hx (h t ht x List.mem_cons_self hbelow)

theorem ComeInOrder.aside (h : ComeInOrder (x :: rest)) (hx : x ∉ rest) :
    ComeInOrder (x.aside rest) := by
  intro p hp s hs hbelow
  obtain ⟨hp, hpx⟩ := mem_aside.1 hp
  obtain ⟨hs, hsx⟩ := mem_aside.1 hs
  have hpair := h p (List.mem_cons_of_mem x hp) s (List.mem_cons_of_mem x hs) hbelow
  have hne : p ≠ x := fun heq => hx (heq ▸ hp)
  rw [pair_sublist_aside_iff hpx hsx]
  exact (pair_sublist_cons_iff.1 hpair).resolve_left fun heq => hne heq.1

/-- Behind a topmost section, the topmost ones are those of the sections aside of it. -/
theorem topmost_cons (hx : ∀ t ∈ x :: rest, x.isBelow t = false) :
    topmost (x :: rest) = x :: topmost (x.aside rest) := by
  rw [topmost, List.filter_cons_of_pos (by simpa using hx), topmost, Section.aside,
    List.filter_filter]
  refine congrArg (x :: ·) (List.filter_congr fun s _ => ?_)
  rw [Bool.eq_iff_iff, Bool.and_eq_true, decide_eq_true_iff, decide_eq_true_iff]
  constructor
  · intro htop
    have hsx : s.isBelow x = false := htop x List.mem_cons_self
    exact ⟨fun t ht => htop t (List.mem_cons_of_mem x (List.mem_of_mem_filter ht)), by simp [hsx]⟩
  · rintro ⟨htop, hsx⟩ t ht
    have hsx : s.isBelow x = false := by simpa using hsx
    rcases List.mem_cons.1 ht with rfl | ht
    · exact hsx
    · rw [Bool.eq_false_iff]
      intro hst
      -- a section above `s` is aside of `x`, as `s` is
      have haside : t ∈ x.aside rest := mem_aside.2 ⟨ht, isBelow_eq_false_of_above hst hsx⟩
      rw [htop t haside] at hst
      cases hst

/-- What is below a section aside of a topmost one is aside of it too. -/
theorem below_aside (hnames : ∀ s ∈ rest, s.name ≠ x.name)
    (hx : ∀ t ∈ x :: rest, x.isBelow t = false) (hs : s ∈ x.aside rest) :
    s.below (x.aside rest) = s.below (x :: rest) := by
  obtain ⟨hs, hsx⟩ := mem_aside.1 hs
  have hxs : x.isBelow s = false := hx s (List.mem_cons_of_mem x hs)
  rw [below, below, List.filter_cons_of_neg (by simp [hxs]), Section.aside, List.filter_filter]
  refine List.filter_congr fun t _ => ?_
  cases hts : t.isBelow s with
  | false => rfl
  | true =>
    have htx : t.isBelow x = false := by
      rw [Bool.eq_false_iff]
      intro htx
      rcases isBelow_total hts htx (hnames s hs) with h | h
      · rw [h] at hsx
        cases hsx
      · rw [h] at hxs
        cases hxs
    simp [htx]

/-! ## Whole trees -/

/-- **If the sections come in order, the groups are whole trees**, in the order of the topmost
sections. -/
theorem families_eq_map (hnames : (sections.map Section.name).Nodup)
    (hordered : ComeInOrder sections) :
    families sections = (topmost sections).map fun s => (s, s.below sections) := by
  -- the first section, `x`, is topmost, and the rest goes on with what is aside of it
  fun_induction families sections with
  | case1 => rfl
  | case2 x rest ih =>
    obtain ⟨hnew, hrest⟩ := List.nodup_cons.1 hnames
    have hx : x ∉ rest := fun h => hnew (List.mem_map_of_mem h)
    have hne : ∀ s ∈ rest, s.name ≠ x.name := fun s hs heq => hnew (heq ▸ List.mem_map_of_mem hs)
    have htop := hordered.isBelow_first hx
    have hfirst : x.below (x :: rest) = x.below rest := by
      rw [below, List.filter_cons_of_neg (by simp [isBelow_irrefl]), below]
    rw [topmost_cons htop, List.map_cons, hfirst,
      ih (hrest.sublist (List.filter_sublist.map _)) (hordered.aside hx)]
    refine congrArg ((x, x.below rest) :: ·) (List.map_congr_left fun s hs => ?_)
    rw [below_aside hne htop (mem_topmost.1 hs).1]

theorem parentFirst_eq_trees (hnames : (sections.map Section.name).Nodup)
    (hordered : ComeInOrder sections) :
    parentFirst sections = (topmost sections).flatMap fun s => s :: s.below sections := by
  rw [parentFirst_eq_flatMap, families_eq_map hnames hordered, List.flatMap_map]

namespace Catalogue

variable {c : Catalogue}

/-- Every section got its number after all sections that it is below. -/
def NumberedInOrder (c : Catalogue) : Prop :=
  ∀ p ∈ c.sections.values, ∀ s ∈ c.sections.values, s.isBelow p = true → p.order < s.order

theorem WellFormed.comeInOrder_iff (h : c.WellFormed) :
    ComeInOrder c.sections.values ↔ c.NumberedInOrder := by
  refine forall₂_congr fun p hp => forall₂_congr fun s hs => ?_
  rw [pair_sublist_iff_lt h.sections_increasing hp hs]

/-- The order with parents first.  Sections are numbered in the order in which they came: when they
were declared, or reserved before that. -/
structure TreeOrder (c : Catalogue) : Prop where
  /-- Every section has one place. -/
  perm : c.sectionsParentFirst.Perm c.sections.values
  nodup : (c.sectionsParentFirst.map Section.name).Nodup
  /-- If the sections came in order, it is one tree after the other: a section that is below no
  other one, and all that are below it. -/
  eq_trees : c.NumberedInOrder → c.sectionsParentFirst =
    (topmost c.sections.values).flatMap fun s => s :: s.below c.sections.values
  /-- Then every section comes after all that it is below. -/
  upper_first : c.NumberedInOrder → ∀ p ∈ c.sections.values, ∀ s ∈ c.sections.values,
    s.isBelow p = true → [p, s].Sublist c.sectionsParentFirst

theorem WellFormed.treeOrder (h : c.WellFormed) : c.TreeOrder where
  perm := perm_parentFirst _
  nodup := ((perm_parentFirst _).map Section.name).nodup_iff.2 h.names_nodup
  eq_trees hordered := parentFirst_eq_trees h.names_nodup (h.comeInOrder_iff.2 hordered)
  upper_first hordered _ hp _ hs hps :=
    pair_sublist_parentFirst h.names_nodup (h.comeInOrder_iff.2 hordered) hp hs hps

/-- **The order with parents first, after any run.** -/
theorem treeOrder_run (knownTags : List Text) (operations : List Operation) :
    ((new knownTags).run operations).TreeOrder :=
  ((wellFormed_new knownTags).run operations).treeOrder

end Catalogue

end TexSymbols
