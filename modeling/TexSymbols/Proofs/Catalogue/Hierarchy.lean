import TexSymbols.Proofs.Catalogue.Runs

/-!
# The order of sections

* `Section.path` — a section and the sections above it.
* `perm_parentFirst` — `parentFirst` holds every section once.
* `pair_sublist_parentFirst_iff` — of two sections, one below the other, the upper one comes first
  exactly if it was declared first and the first section of the path is not below it.
* `pair_sublist_parentFirst` — so it does if no section was declared before one above it.
-/

namespace TexSymbols

/-! ## Two elements in order -/

section Pairs

variable {α : Type} {a b x : α} {l l' : List α}

theorem pair_sublist_cons_iff : [a, b].Sublist (x :: l) ↔ a = x ∧ b ∈ l ∨ [a, b].Sublist l := by
  rw [List.cons_sublist_cons', List.singleton_sublist, or_comm]

theorem not_pair_sublist_of_left (h : a ∉ l) : ¬ [a, b].Sublist l :=
  fun hpair => h (hpair.subset (by simp))

theorem not_pair_sublist_of_right (h : b ∉ l) : ¬ [a, b].Sublist l :=
  fun hpair => h (hpair.subset (by simp))

/-- Nothing comes before the first element. -/
theorem not_pair_sublist_cons (h : b ∉ l) : ¬ [a, b].Sublist (b :: l) := by
  rw [pair_sublist_cons_iff]
  rintro (⟨-, hb⟩ | hpair)
  · exact h hb
  · exact not_pair_sublist_of_right h hpair

theorem pair_sublist_append_iff :
    [a, b].Sublist (l ++ l') ↔ [a, b].Sublist l ∨ a ∈ l ∧ b ∈ l' ∨ [a, b].Sublist l' := by
  induction l with
  | nil => simp
  | cons x l ih =>
    rw [List.cons_append, pair_sublist_cons_iff, pair_sublist_cons_iff, ih]
    simp only [List.mem_append, List.mem_cons, and_or_left, or_and_right, or_assoc, or_left_comm]

theorem pair_sublist_filter_iff {q : α → Bool} (ha : q a = true) (hb : q b = true) :
    [a, b].Sublist (l.filter q) ↔ [a, b].Sublist l := by
  refine ⟨fun h => h.trans List.filter_sublist, fun h => ?_⟩
  have hpair := h.filter q
  rwa [List.filter_cons_of_pos ha, List.filter_cons_of_pos hb, List.filter_nil] at hpair

end Pairs

/-! ## Above and below -/

namespace Section

variable {s t u : Section}

theorem isBelow_iff : s.isBelow t = true ↔ t.name ++ ['/'] <+: s.name := List.isPrefixOf_iff_prefix

theorem name_length_lt (h : s.isBelow t = true) : t.name.length < s.name.length := by
  have hle := (isBelow_iff.1 h).length_le
  rw [List.length_append] at hle
  exact hle

theorem isBelow_trans (h : s.isBelow t = true) (h' : t.isBelow u = true) : s.isBelow u = true := by
  rw [isBelow_iff] at h h' ⊢
  exact h'.trans ((List.prefix_append ..).trans h)

/-- What is above a section is below no section that the first one is not below. -/
theorem isBelow_eq_false_of_above (h : s.isBelow t = true) (hu : s.isBelow u = false) :
    t.isBelow u = false := by
  rw [Bool.eq_false_iff] at hu ⊢
  exact fun htu => hu (isBelow_trans h htu)

theorem isBelow_asymm (h : s.isBelow t = true) : t.isBelow s = false := by
  rw [Bool.eq_false_iff]
  intro h'
  exact Nat.lt_asymm (name_length_lt h) (name_length_lt h')

theorem isBelow_irrefl (s : Section) : s.isBelow s = false := by
  rw [Bool.eq_false_iff]
  exact fun h => Nat.lt_irrefl _ (name_length_lt h)

/-- Of two sections above a third, one is above the other. -/
theorem isBelow_total (ht : s.isBelow t = true) (hu : s.isBelow u = true) (hne : t.name ≠ u.name) :
    t.isBelow u = true ∨ u.isBelow t = true := by
  have hlonger : ∀ {v w : Section}, v.name ≠ w.name → v.name ++ ['/'] <+: w.name ++ ['/'] →
      w.isBelow v = true := by
    intro v w hvw hprefix
    rw [isBelow_iff]
    rcases List.prefix_concat_iff.1 hprefix with heq | hprefix
    · exact absurd (List.append_inj_left' heq rfl) hvw
    · exact hprefix
  rcases List.prefix_or_prefix_of_prefix (isBelow_iff.1 ht) (isBelow_iff.1 hu) with h | h
  · exact .inr (hlonger hne h)
  · exact .inl (hlonger hne.symm h)

/-- The section and the sections above it, in order. -/
def path (s : Section) (sections : List Section) : List Section :=
  sections.filter fun t => t = s ∨ s.isBelow t = true

end Section

open Section

variable {p s x : Section} {sections rest : List Section}

/-! ## Parents first -/

theorem perm_parentFirst (sections : List Section) : (parentFirst sections).Perm sections := by
  fun_induction parentFirst sections with
  | case1 => exact .refl _
  | case2 s rest ih =>
    refine .cons s ((List.Perm.append_left _ ih).trans ?_)
    exact List.filter_append_perm ..

theorem mem_parentFirst : s ∈ parentFirst sections ↔ s ∈ sections := (perm_parentFirst _).mem_iff

theorem mem_below : s ∈ x.below rest ↔ s ∈ rest ∧ s.isBelow x = true := List.mem_filter

theorem mem_aside : s ∈ x.aside rest ↔ s ∈ rest ∧ s.isBelow x = false := by
  simp [aside]

theorem pair_sublist_below_iff (hp : p.isBelow x = true) (hs : s.isBelow x = true) :
    [p, s].Sublist (x.below rest) ↔ [p, s].Sublist rest :=
  pair_sublist_filter_iff hp hs

theorem pair_sublist_aside_iff (hp : p.isBelow x = false) (hs : s.isBelow x = false) :
    [p, s].Sublist (x.aside rest) ↔ [p, s].Sublist rest :=
  pair_sublist_filter_iff (by simp [hp]) (by simp [hs])

theorem mem_path {t : Section} :
    t ∈ s.path sections ↔ t ∈ sections ∧ (t = s ∨ s.isBelow t = true) := by
  simp [path]

theorem pair_sublist_path_iff {t u : Section} (ht : t = s ∨ s.isBelow t = true)
    (hu : u = s ∨ s.isBelow u = true) :
    [t, u].Sublist (s.path sections) ↔ [t, u].Sublist sections :=
  pair_sublist_filter_iff (decide_eq_true ht) (decide_eq_true hu)

/-- The path of a section that is not below `x` does not go through sections that are. -/
theorem path_aside (h : s.isBelow x = false) : s.path (x.aside rest) = s.path rest := by
  rw [path, aside, List.filter_filter, path]
  refine List.filter_congr fun t _ => ?_
  have haside : t = s ∨ s.isBelow t = true → t.isBelow x = false := by
    rintro (rfl | hst)
    · exact h
    · exact isBelow_eq_false_of_above hst h
  by_cases ht : t = s ∨ s.isBelow t = true
  · simp [ht, haside ht]
  · simp [ht]

theorem head?_path_cons_of_mem (h : x = s ∨ s.isBelow x = true) :
    (s.path (x :: rest)).head? = some x := by
  rw [path, List.filter_cons_of_pos (by simpa using h), List.head?_cons]

theorem path_cons_of_notMem (hne : x ≠ s) (h : s.isBelow x = false) :
    s.path (x :: rest) = s.path rest := by
  rw [path, List.filter_cons_of_neg (by simp [hne, h]), path]

/-- A first section above `s`: all that is below it follows, and nothing else comes before `s`. -/
theorem pair_sublist_parentFirst_cons_iff (hx : x.name ∉ rest.map Section.name)
    (hp : p ∈ x :: rest) (hs : s ∈ rest) (hps : s.isBelow p = true) (hsx : s.isBelow x = true) :
    [p, s].Sublist (parentFirst (x :: rest)) ↔
      [p, s].Sublist (x :: rest) ∧ x.isBelow p = false := by
  have hbelow : s ∈ x.below rest := mem_below.2 ⟨hs, hsx⟩
  have haside : s ∉ parentFirst (x.aside rest) := by
    rw [mem_parentFirst, mem_aside, hsx]
    simp
  rw [parentFirst, pair_sublist_cons_iff, pair_sublist_append_iff, pair_sublist_cons_iff]
  by_cases hpx : p = x
  · subst hpx
    simp [hbelow, hs, isBelow_irrefl]
  · have hrest : p ∈ rest := List.mem_of_ne_of_mem hpx hp
    have hne : p.name ≠ x.name := fun heq => hx (heq ▸ List.mem_map_of_mem hrest)
    have hpair : [p, s].Sublist (x.below rest) ↔ [p, s].Sublist rest ∧ x.isBelow p = false := by
      rcases isBelow_total hps hsx hne with h | h
      · rw [pair_sublist_below_iff h hsx]
        simp [isBelow_asymm h]
      · have hnot : p ∉ x.below rest := by simp [mem_below, isBelow_asymm h]
        simp [not_pair_sublist_of_left hnot, h]
    simp [hpx, haside, not_pair_sublist_of_right haside, hpair]

/-- A first section that `p` is not below: `p` stands among the sections aside of it. -/
theorem pair_sublist_parentFirst_cons_of_aside (hne : p ≠ x) (hpx : p.isBelow x = false) :
    [p, s].Sublist (parentFirst (x :: rest)) ↔ [p, s].Sublist (parentFirst (x.aside rest)) := by
  have hbelow : p ∉ x.below rest := by simp [mem_below, hpx]
  rw [parentFirst, pair_sublist_cons_iff, pair_sublist_append_iff]
  simp [hne, hbelow, not_pair_sublist_of_left hbelow]

/-- **Of two sections, one below the other, the upper one comes first** exactly if it was declared
first, and the section of the path that was declared first of all is not below it. -/
theorem pair_sublist_parentFirst_iff (hnames : (sections.map Section.name).Nodup)
    (hp : p ∈ sections) (hs : s ∈ sections) (hps : s.isBelow p = true) :
    [p, s].Sublist (parentFirst sections) ↔
      [p, s].Sublist sections ∧
        ∀ first ∈ (s.path sections).head?, first.isBelow p = false := by
  -- the first section, `x`, is `s`, or it is above `s`, or `s` and `p` are both aside of it
  induction sections using parentFirst.induct with
  | case1 => simp at hp
  | case2 x rest ih =>
    obtain ⟨hx, hrest⟩ := List.nodup_cons.1 hnames
    by_cases hxs : x = s
    · subst hxs
      have hnotMem : x ∉ rest := fun h => hx (List.mem_map_of_mem h)
      have hafter : x ∉ x.below rest ++ parentFirst (x.aside rest) := by
        simp [mem_below, mem_parentFirst, mem_aside, hnotMem]
      rw [parentFirst]
      exact iff_of_false (not_pair_sublist_cons hafter) fun h => not_pair_sublist_cons hnotMem h.1
    · have hs' : s ∈ rest := List.mem_of_ne_of_mem (Ne.symm hxs) hs
      cases hsx : s.isBelow x with
      | true =>
        rw [head?_path_cons_of_mem (.inr hsx)]
        simpa using pair_sublist_parentFirst_cons_iff hx hp hs' hps hsx
      | false =>
        have hpx : p.isBelow x = false := isBelow_eq_false_of_above hps hsx
        have hne : p ≠ x := by
          rintro rfl
          rw [hps] at hsx
          cases hsx
        have hp' : p ∈ rest := List.mem_of_ne_of_mem hne hp
        have hnames' : ((x.aside rest).map Section.name).Nodup :=
          hrest.sublist (List.filter_sublist.map _)
        rw [pair_sublist_parentFirst_cons_of_aside hne hpx, pair_sublist_cons_iff,
          path_cons_of_notMem hxs hsx,
          ih hnames' (mem_aside.2 ⟨hp', hpx⟩) (mem_aside.2 ⟨hs', hsx⟩),
          pair_sublist_aside_iff hpx hsx, path_aside hsx]
        simp [hne]

/-- **Parents that are declared first come first.** -/
theorem pair_sublist_parentFirst (hnames : (sections.map Section.name).Nodup)
    (h : ∀ p ∈ sections, ∀ s ∈ sections, s.isBelow p = true → [p, s].Sublist sections)
    (hp : p ∈ sections) (hs : s ∈ sections) (hps : s.isBelow p = true) :
    [p, s].Sublist (parentFirst sections) := by
  rw [pair_sublist_parentFirst_iff hnames hp hs hps]
  refine ⟨h p hp s hs hps, fun first hfirst => ?_⟩
  obtain ⟨later, hpath⟩ := List.head?_eq_some_iff.1 (Option.mem_def.1 hfirst)
  have hmem : first ∈ s.path sections := by rw [hpath]; exact List.mem_cons_self
  obtain ⟨hsections, hon⟩ := mem_path.1 hmem
  have hnew : first ∉ later := by
    have hnodup : (s.path sections).Nodup :=
      (List.Nodup.of_map _ hnames).sublist List.filter_sublist
    rw [hpath] at hnodup
    exact (List.nodup_cons.1 hnodup).1
  -- were it below `p`, then `p` would stand before it on the path
  rw [Bool.eq_false_iff]
  intro hbelow
  have hpair : [p, first].Sublist (s.path sections) :=
    (pair_sublist_path_iff (.inr hps) hon).2 (h p hp first hsections hbelow)
  rw [hpath] at hpair
  exact not_pair_sublist_cons hnew hpair

end TexSymbols
