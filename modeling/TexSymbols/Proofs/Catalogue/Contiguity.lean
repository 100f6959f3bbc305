import TexSymbols.Proofs.Catalogue.Hierarchy

/-!
# What follows a section at once

* `FollowedBy` — in a list, the elements with a property stand right behind an element;
  `followedBy_iff` — exactly if they come after it and nothing else comes between.
* `Section.root` — the first one of a section and those above it.
  `pair_sublist_parentFirst_iff_root` — sections stand in the order of their roots, and with one
  root in the order in which they came.
* `Section.LeadsBelow` — a section is followed at once by all later ones below it;
  `leadsBelow_iff` — when it is.
* `Catalogue.Contiguity` — the same after every run: `contiguity_run`.  `exists_not_leadsBelow` — a
  section that is not.
-/

namespace TexSymbols

/-! ## Elements right behind another one -/

/-- The elements with `P` stand right behind `s`. -/
def FollowedBy {α : Type} (l : List α) (s : α) (P : α → Prop) : Prop :=
  ∃ before block after, l = before ++ s :: (block ++ after) ∧ ∀ t, t ∈ block ↔ P t

section Followed

variable {α : Type} {l before rest : List α} {s t u : α} {P : α → Prop}

theorem pair_sublist_append_cons_iff (h : (before ++ s :: rest).Nodup) :
    [s, t].Sublist (before ++ s :: rest) ↔ t ∈ rest := by
  obtain ⟨-, hrest, hdisjoint⟩ := List.nodup_append'.1 h
  have hbefore : s ∉ before := fun hs => hdisjoint hs List.mem_cons_self
  have hafter : s ∉ rest := (List.nodup_cons.1 hrest).1
  rw [pair_sublist_append_iff, pair_sublist_cons_iff]
  simp [hbefore, not_pair_sublist_of_left hbefore, not_pair_sublist_of_left hafter]

theorem triple_sublist_append_cons_iff (h : (before ++ s :: rest).Nodup) :
    [s, u, t].Sublist (before ++ s :: rest) ↔ [u, t].Sublist rest := by
  constructor
  · intro htriple
    induction before with
    | nil =>
      rcases List.cons_sublist_cons'.1 htriple with hlater | ⟨-, hpair⟩
      · exact absurd (hlater.subset List.mem_cons_self) (List.nodup_cons.1 h).1
      · exact hpair
    | cons x before ih =>
      obtain ⟨hx, hnodup⟩ := List.nodup_cons.1 h
      rcases List.cons_sublist_cons'.1 htriple with hlater | ⟨rfl, -⟩
      · exact ih hnodup hlater
      · exact absurd (List.mem_append_right _ List.mem_cons_self) hx
  · intro hpair
    exact (hpair.cons_cons s).trans (List.sublist_append_right ..)

/-- **Elements stand right behind another one** exactly if they come after it, and what comes
between is one of them. -/
theorem followedBy_iff (hl : l.Nodup) (hs : s ∈ l) : FollowedBy l s P ↔
    (∀ t, P t → [s, t].Sublist l) ∧ ∀ u t, [s, u, t].Sublist l → P t → P u := by
  classical
  constructor
  · rintro ⟨before, block, after, rfl, hblock⟩
    have hrest : (block ++ after).Nodup := (List.nodup_cons.1 (List.nodup_append'.1 hl).2.1).2
    refine ⟨fun t ht => ?_, fun u t hut ht => ?_⟩
    · rw [pair_sublist_append_cons_iff hl]
      exact List.mem_append_left _ ((hblock t).2 ht)
    · rw [triple_sublist_append_cons_iff hl, pair_sublist_append_iff] at hut
      have hafter : t ∉ after := (List.nodup_append'.1 hrest).2.2 ((hblock t).2 ht)
      rcases hut with hpair | ⟨hu, -⟩ | hpair
      · exact (hblock u).1 (hpair.subset List.mem_cons_self)
      · exact (hblock u).1 hu
      · exact absurd hpair (not_pair_sublist_of_right hafter)
  · rintro ⟨hlater, hbetween⟩
    obtain ⟨before, rest, rfl⟩ := List.append_of_mem hs
    have hsplit : rest.takeWhile (fun t => decide (P t)) ++ rest.dropWhile (fun t => decide (P t)) =
        rest := List.takeWhile_append_dropWhile
    refine ⟨before, _, _, by rw [hsplit], fun t => ⟨fun ht => ?_, fun ht => ?_⟩⟩
    · exact of_decide_eq_true (List.all_eq_true.1 List.all_takeWhile t ht)
    · have hmem : t ∈ rest := (pair_sublist_append_cons_iff hl).1 (hlater t ht)
      rw [← hsplit] at hmem
      refine (List.mem_append.1 hmem).resolve_right fun hdrop => ?_
      -- the first element that is not taken comes between, or is `t` itself
      have hfirst := List.head?_dropWhile_not (fun t => decide (P t)) rest
      cases hrest : rest.dropWhile (fun t => decide (P t)) with
      | nil =>
        rw [hrest] at hdrop
        cases hdrop
      | cons u later =>
        rw [hrest] at hfirst hdrop
        have hu : ¬ P u := by simpa using hfirst
        rcases List.mem_cons.1 hdrop with rfl | ht'
        · exact hu ht
        · refine hu (hbetween u t ?_ ht)
          rw [triple_sublist_append_cons_iff hl, ← hsplit, hrest, pair_sublist_append_iff]
          exact .inr (.inr (pair_sublist_cons_iff.2 (.inl ⟨rfl, ht'⟩)))

/-- Of three elements two neighbours are in order. -/
theorem triple_sublist_iff (h : l.Nodup) :
    [s, u, t].Sublist l ↔ [s, u].Sublist l ∧ [u, t].Sublist l := by
  constructor
  · intro htriple
    exact ⟨(List.sublist_append_left [s, u] [t]).trans htriple,
      (List.sublist_cons_self s [u, t]).trans htriple⟩
  · rintro ⟨hsu, hut⟩
    obtain ⟨before, rest, rfl⟩ := List.append_of_mem (hsu.subset List.mem_cons_self)
    have hu : u ∈ rest := (pair_sublist_append_cons_iff h).1 hsu
    obtain ⟨-, hrest, hdisjoint⟩ := List.nodup_append'.1 h
    have hbefore : u ∉ before := fun hmem => hdisjoint hmem (List.mem_cons_of_mem s hu)
    have hne : u ≠ s := fun heq => (List.nodup_cons.1 hrest).1 (heq ▸ hu)
    rw [triple_sublist_append_cons_iff h]
    rw [pair_sublist_append_iff, pair_sublist_cons_iff] at hut
    simpa [hbefore, hne, not_pair_sublist_of_left hbefore] using hut

/-- No two elements are in both orders. -/
theorem not_pair_sublist_of_pair_sublist (h : l.Nodup) (hst : [s, t].Sublist l) :
    ¬ [t, s].Sublist l := by
  intro hts
  have htriple : [s, t, s].Sublist l := (triple_sublist_iff h).2 ⟨hst, hts⟩
  have hnodup := h.sublist htriple
  simp at hnodup

end Followed

/-! ## Roots -/

open Section

variable {s t u x : Section} {sections rest : List Section}

/-- The first one, as they came, of a section and those above it. -/
def Section.root (s : Section) (sections : List Section) : Section :=
  (s.path sections).head?.getD s

theorem root_cons_of_mem (h : x = s ∨ s.isBelow x = true) : s.root (x :: rest) = x := by
  rw [root, head?_path_cons_of_mem h, Option.getD_some]

/-- A first section that is not on the path can be left out, together with all below it. -/
theorem root_cons_of_aside (hne : x ≠ s) (h : s.isBelow x = false) :
    s.root (x :: rest) = s.root (x.aside rest) := by
  rw [root, root, path_cons_of_notMem hne h, path_aside h]

theorem root_mem (h : s ∈ sections) : s.root sections ∈ sections := by
  cases hfirst : (s.path sections).head? with
  | none => rwa [root, hfirst, Option.getD_none]
  | some first =>
    rw [root, hfirst, Option.getD_some]
    exact (mem_path.1 (List.mem_of_head? hfirst)).1

theorem root_eq_or_isBelow (s : Section) (sections : List Section) :
    s.root sections = s ∨ s.isBelow (s.root sections) = true := by
  cases hfirst : (s.path sections).head? with
  | none => exact .inl (by rw [root, hfirst, Option.getD_none])
  | some first =>
    rw [root, hfirst, Option.getD_some]
    exact (mem_path.1 (List.mem_of_head? hfirst)).2

/-- A section that is the first one or below it. -/
theorem grouped_cons (hx : x ∉ rest) (hs : s ∈ x :: rest) (h : x = s ∨ s.isBelow x = true) :
    s ∈ x :: x.below rest ∧ s ∉ parentFirst (x.aside rest) := by
  rw [mem_parentFirst, mem_aside]
  rcases h with rfl | hbelow
  · exact ⟨List.mem_cons_self, fun haside => hx haside.1⟩
  · have hne : s ≠ x := by
      rintro rfl
      rw [isBelow_irrefl] at hbelow
      cases hbelow
    have hrest : s ∈ rest := List.mem_of_ne_of_mem hne hs
    exact ⟨List.mem_cons_of_mem x (mem_below.2 ⟨hrest, hbelow⟩), by simp [hbelow]⟩

/-- Any other section. -/
theorem aside_cons (hs : s ∈ x :: rest) (h : ¬ (x = s ∨ s.isBelow x = true)) :
    s ∈ x.aside rest ∧ s ∉ x :: x.below rest := by
  rw [not_or, Bool.not_eq_true] at h
  have hrest : s ∈ rest := List.mem_of_ne_of_mem (Ne.symm h.1) hs
  exact ⟨mem_aside.2 ⟨hrest, h.2⟩, by simp [mem_below, h.2, Ne.symm h.1]⟩

theorem cons_below_eq_filter (hx : x ∉ rest) :
    x :: x.below rest = (x :: rest).filter fun s => x = s ∨ s.isBelow x = true := by
  rw [List.filter_cons_of_pos (by simp), below]
  refine congrArg (x :: ·) (List.filter_congr fun s hs => ?_)
  have hne : x ≠ s := by
    rintro rfl
    exact hx hs
  simp [hne]

/-- **Sections stand in the order of their roots**, and with one root in the order in which they
came. -/
theorem pair_sublist_parentFirst_iff_root (hsections : sections.Nodup) (hs : s ∈ sections)
    (ht : t ∈ sections) : [s, t].Sublist (parentFirst sections) ↔
      [s.root sections, t.root sections].Sublist sections ∨
        s.root sections = t.root sections ∧ [s, t].Sublist sections := by
  -- each of the two stands with the first section, `x`, or aside of it
  induction sections using parentFirst.induct with
  | case1 => cases hs
  | case2 x rest ih =>
    obtain ⟨hx, hrest⟩ := List.nodup_cons.1 hsections
    have hroot : ∀ {u : Section}, u ∈ x.aside rest →
        u.root (x.aside rest) ∈ rest ∧ (u.root (x.aside rest)).isBelow x = false :=
      fun hu => mem_aside.1 (root_mem hu)
    have hsplit : parentFirst (x :: rest) = (x :: x.below rest) ++ parentFirst (x.aside rest) := by
      rw [parentFirst, List.cons_append]
    rw [hsplit, pair_sublist_append_iff]
    by_cases hsx : x = s ∨ s.isBelow x = true
    · obtain ⟨hsIn, hsOut⟩ := grouped_cons hx hs hsx
      rw [root_cons_of_mem hsx]
      by_cases htx : x = t ∨ t.isBelow x = true
      · obtain ⟨-, htOut⟩ := grouped_cons hx ht htx
        have hfilter := pair_sublist_filter_iff (l := x :: rest)
          (q := fun s => decide (x = s ∨ s.isBelow x = true)) (decide_eq_true hsx)
          (decide_eq_true htx)
        rw [root_cons_of_mem htx, cons_below_eq_filter hx, hfilter]
        simp [htOut, not_pair_sublist_of_right htOut, not_pair_sublist_cons hx]
      · obtain ⟨htAside, -⟩ := aside_cons ht htx
        rw [not_or, Bool.not_eq_true] at htx
        rw [root_cons_of_aside htx.1 htx.2]
        refine iff_of_true (.inr (.inl ⟨hsIn, mem_parentFirst.2 htAside⟩)) (.inl ?_)
        exact pair_sublist_cons_iff.2 (.inl ⟨rfl, (hroot htAside).1⟩)
    · obtain ⟨hsAside, hsIn⟩ := aside_cons hs hsx
      rw [not_or, Bool.not_eq_true] at hsx
      rw [root_cons_of_aside hsx.1 hsx.2]
      have hne : s.root (x.aside rest) ≠ x := fun heq => hx (heq ▸ (hroot hsAside).1)
      by_cases htx : x = t ∨ t.isBelow x = true
      · obtain ⟨-, htOut⟩ := grouped_cons hx ht htx
        rw [root_cons_of_mem htx]
        simp [hsIn, hne, not_pair_sublist_of_left hsIn, not_pair_sublist_of_right htOut,
          not_pair_sublist_cons hx]
      · obtain ⟨htAside, -⟩ := aside_cons ht htx
        rw [not_or, Bool.not_eq_true] at htx
        rw [root_cons_of_aside htx.1 htx.2, ih (hrest.sublist List.filter_sublist) hsAside htAside,
          pair_sublist_aside_iff (hroot hsAside).2 (hroot htAside).2,
          pair_sublist_aside_iff hsx.2 htx.2, pair_sublist_cons_iff (l := rest),
          pair_sublist_cons_iff (l := rest)]
        simp [hsIn, hne, Ne.symm hsx.1, not_pair_sublist_of_left hsIn]

/-! ## Sections below at once -/

namespace Section

/-- The section is followed at once, in the order with parents first, by all sections that came
later and are below it. -/
def LeadsBelow (s : Section) (sections : List Section) : Prop :=
  FollowedBy (parentFirst sections) s fun t => [s, t].Sublist sections ∧ t.isBelow s = true

end Section

/-- Nothing on the path of a section comes before its root. -/
theorem not_pair_sublist_root (hsections : sections.Nodup) (hs : s = t ∨ t.isBelow s = true) :
    ¬ [s, t.root sections].Sublist sections := by
  intro hpair
  have hpath : [s, t.root sections].Sublist (t.path sections) :=
    (pair_sublist_path_iff hs (root_eq_or_isBelow t sections)).2 hpair
  cases hfirst : t.path sections with
  | nil =>
    rw [hfirst] at hpath
    cases hpath
  | cons first later =>
    have hnodup : (t.path sections).Nodup := hsections.sublist List.filter_sublist
    have hroot : t.root sections = first := by rw [root, hfirst]; rfl
    rw [hfirst] at hpath hnodup
    rw [hroot] at hpath
    exact not_pair_sublist_cons (List.nodup_cons.1 hnodup).1 hpath

/-- A section below another one comes after it exactly if they have one root. -/
theorem pair_sublist_parentFirst_iff_of_isBelow (hsections : sections.Nodup)
    (hpair : [s, t].Sublist sections) (hts : t.isBelow s = true) :
    [s, t].Sublist (parentFirst sections) ↔ t.root sections = s.root sections := by
  have hs : s ∈ sections := hpair.subset (by simp)
  have ht : t ∈ sections := hpair.subset (by simp)
  -- the root of `s` is on the path of `t`
  have hon : s.root sections = t ∨ t.isBelow (s.root sections) = true := by
    rcases root_eq_or_isBelow s sections with heq | hbelow
    · exact .inr (by rwa [heq])
    · exact .inr (isBelow_trans hts hbelow)
  rw [pair_sublist_parentFirst_iff_root hsections hs ht]
  simp [not_pair_sublist_root hsections hon, hpair, eq_comm]

/-- **A section is followed at once by all later ones below it** exactly if these have its root, and
between it and each of them none of that root came that is not below it. -/
theorem leadsBelow_iff (hsections : sections.Nodup) (hs : s ∈ sections) :
    s.LeadsBelow sections ↔ ∀ t, [s, t].Sublist sections → t.isBelow s = true →
      t.root sections = s.root sections ∧
        ∀ u, [s, u].Sublist sections → [u, t].Sublist sections →
          u.root sections = s.root sections → u.isBelow s = true := by
  have horder : (parentFirst sections).Nodup := (perm_parentFirst sections).nodup_iff.2 hsections
  rw [LeadsBelow, followedBy_iff horder (mem_parentFirst.2 hs)]
  constructor
  · rintro ⟨hlater, hbetween⟩ t hpair hts
    have hroot : t.root sections = s.root sections :=
      (pair_sublist_parentFirst_iff_of_isBelow hsections hpair hts).1 (hlater t ⟨hpair, hts⟩)
    refine ⟨hroot, fun u hsu hut huroot => ?_⟩
    have hu : u ∈ sections := hut.subset (by simp)
    have ht : t ∈ sections := hut.subset (by simp)
    have htriple : [s, u, t].Sublist (parentFirst sections) := by
      rw [triple_sublist_iff horder, pair_sublist_parentFirst_iff_root hsections hs hu,
        pair_sublist_parentFirst_iff_root hsections hu ht, huroot, hroot]
      exact ⟨.inr ⟨rfl, hsu⟩, .inr ⟨rfl, hut⟩⟩
    exact (hbetween u t htriple ⟨hpair, hts⟩).2
  · intro h
    refine ⟨fun t ht => ?_, fun u t htriple ht => ?_⟩
    · rw [pair_sublist_parentFirst_iff_of_isBelow hsections ht.1 ht.2]
      exact (h t ht.1 ht.2).1
    · obtain ⟨hroot, hbetween⟩ := h t ht.1 ht.2
      have hu : u ∈ sections := mem_parentFirst.1 (htriple.subset (by simp))
      have ht' : t ∈ sections := ht.1.subset (by simp)
      rw [triple_sublist_iff horder, pair_sublist_parentFirst_iff_root hsections hs hu,
        pair_sublist_parentFirst_iff_root hsections hu ht', hroot] at htriple
      -- the root of `u` is neither behind that of `s` nor before it
      obtain ⟨hroots | ⟨heq, hsu⟩, hroots' | ⟨heq', hut⟩⟩ := htriple
      · exact absurd hroots' (not_pair_sublist_of_pair_sublist hsections hroots)
      · rw [heq'] at hroots
        exact absurd hroots (not_pair_sublist_of_pair_sublist hsections hroots)
      · rw [heq] at hroots'
        exact absurd hroots' (not_pair_sublist_of_pair_sublist hsections hroots')
      · exact ⟨hsu, hbetween u hsu hut heq'⟩

/-- Where nothing is below a section that is below another one, the upper one of two that came
first is the root of both. -/
theorem root_eq_of_flat (hnames : (sections.map Section.name).Nodup)
    (hflat : ∀ s ∈ sections, ∀ t ∈ sections, ∀ u ∈ sections, t.isBelow s = true →
      u.isBelow t = false)
    (hpair : [s, t].Sublist sections) (hts : t.isBelow s = true) :
    t.root sections = s ∧ s.root sections = s := by
  have hs : s ∈ sections := hpair.subset (by simp)
  have ht : t ∈ sections := hpair.subset (by simp)
  have hnested : ∀ {r : Section}, r ∈ sections → s.isBelow r ≠ true := by
    intro r hr hsr
    have hfalse := hflat r hr s hs t ht hsr
    rw [hts] at hfalse
    cases hfalse
  constructor
  · have hr : t.root sections ∈ sections := root_mem ht
    rcases root_eq_or_isBelow t sections with heq | htr
    · have hnot := not_pair_sublist_root (List.Nodup.of_map _ hnames) (.inr hts)
      rw [heq] at hnot
      exact absurd hpair hnot
    · by_contra hne
      have hname : s.name ≠ (t.root sections).name :=
        fun heq => hne (List.inj_on_of_nodup_map hnames hr hs heq.symm)
      rcases isBelow_total hts htr hname with hsr | hrs
      · exact hnested hr hsr
      · have hfalse := hflat s hs _ hr t ht hrs
        rw [htr] at hfalse
        cases hfalse
  · exact (root_eq_or_isBelow s sections).resolve_right (hnested (root_mem hs))

/-- **In a hierarchy of one level** every section is followed at once by all later ones below
it. -/
theorem leadsBelow_of_flat (hnames : (sections.map Section.name).Nodup)
    (hflat : ∀ s ∈ sections, ∀ t ∈ sections, ∀ u ∈ sections, t.isBelow s = true →
      u.isBelow t = false)
    (hs : s ∈ sections) : s.LeadsBelow sections := by
  have hsections : sections.Nodup := List.Nodup.of_map _ hnames
  rw [leadsBelow_iff hsections hs]
  intro t hpair hts
  obtain ⟨ht, hroot⟩ := root_eq_of_flat hnames hflat hpair hts
  refine ⟨ht.trans hroot.symm, fun u hsu _ hu => ?_⟩
  rw [hroot] at hu
  rcases root_eq_or_isBelow u sections with heq | hbelow
  · rw [← heq, hu] at hsu
    exact absurd hsu (not_pair_sublist_of_pair_sublist hsections hsu)
  · rwa [hu] at hbelow

namespace Catalogue

variable {c : Catalogue}

/-- Which sections are followed at once by those below them. -/
structure Contiguity (c : Catalogue) : Prop where
  /-- Sections stand in the order of their roots, and with one root in the order in which they
  came. -/
  order_iff : ∀ s ∈ c.sections.values, ∀ t ∈ c.sections.values,
    ([s, t].Sublist c.sectionsParentFirst ↔
      [s.root c.sections.values, t.root c.sections.values].Sublist c.sections.values ∨
        s.root c.sections.values = t.root c.sections.values ∧ [s, t].Sublist c.sections.values)
  /-- All later sections below one follow it at once exactly if they have its root, and between it
  and each of them none of that root came that is not below it. -/
  leadsBelow_iff : ∀ s ∈ c.sectionsParentFirst, (s.LeadsBelow c.sections.values ↔
    ∀ t, [s, t].Sublist c.sections.values → t.isBelow s = true →
      t.root c.sections.values = s.root c.sections.values ∧
        ∀ u, [s, u].Sublist c.sections.values → [u, t].Sublist c.sections.values →
          u.root c.sections.values = s.root c.sections.values → u.isBelow s = true)
  /-- So they do if there is only one level below the top. -/
  leadsBelow_of_flat :
    (∀ s ∈ c.sections.values, ∀ t ∈ c.sections.values, ∀ u ∈ c.sections.values,
      t.isBelow s = true → u.isBelow t = false) →
    ∀ s ∈ c.sectionsParentFirst, s.LeadsBelow c.sections.values

theorem WellFormed.contiguity (h : c.WellFormed) : c.Contiguity where
  order_iff _ hs _ ht :=
    pair_sublist_parentFirst_iff_root (List.Nodup.of_map _ h.names_nodup) hs ht
  leadsBelow_iff _ hs :=
    TexSymbols.leadsBelow_iff (List.Nodup.of_map _ h.names_nodup) (mem_parentFirst.1 hs)
  leadsBelow_of_flat hflat _ hs :=
    TexSymbols.leadsBelow_of_flat h.names_nodup hflat (mem_parentFirst.1 hs)

/-- **Which sections are followed at once by those below them, after any run.** -/
theorem contiguity_run (knownTags : List Text) (operations : List Operation) :
    ((new knownTags).run operations).Contiguity :=
  ((wellFormed_new knownTags).run operations).contiguity

/-- Two branches, and then a section below the first one. -/
def branchTakenUpAgain : List Operation :=
  [.read "t.tex" "%:section:a : A
%:section:a/b : B
%:section:a/c : C
%:section:a/b/d : D
" none]

/-- The other branch comes between. -/
theorem exists_not_leadsBelow :
    ((new []).run branchTakenUpAgain).sectionsParentFirst.map Section.name =
        ["a", "a/b", "a/c", "a/b/d"] ∧
      ∃ s ∈ ((new []).run branchTakenUpAgain).sectionsParentFirst,
        ¬ s.LeadsBelow ((new []).run branchTakenUpAgain).sections.values := by
  have hnodup : ((new []).run branchTakenUpAgain).sectionsParentFirst.Nodup := by decide +kernel
  have hbetween : ∃ s ∈ ((new []).run branchTakenUpAgain).sectionsParentFirst,
      ∃ u ∈ ((new []).run branchTakenUpAgain).sectionsParentFirst,
        ∃ t ∈ ((new []).run branchTakenUpAgain).sectionsParentFirst,
          [s, u, t].Sublist ((new []).run branchTakenUpAgain).sectionsParentFirst ∧
            [s, t].Sublist ((new []).run branchTakenUpAgain).sections.values ∧
              t.isBelow s = true ∧ u.isBelow s = false := by
    decide +kernel
  refine ⟨by decide +kernel, ?_⟩
  obtain ⟨s, hs, u, -, t, -, htriple, hpair, hts, hus⟩ := hbetween
  refine ⟨s, hs, fun hleads => ?_⟩
  have hu := ((followedBy_iff hnodup hs).1 hleads).2 u t htriple ⟨hpair, hts⟩
  rw [hu.2] at hus
  cases hus

end Catalogue

end TexSymbols
