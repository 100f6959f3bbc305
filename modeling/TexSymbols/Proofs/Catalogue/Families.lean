import TexSymbols.Proofs.Catalogue.Linking
import TexSymbols.Proofs.Text.Trim

/-!
# Sections listed and sections below

Linking cuts a name at its last slash and trims what stands before it; the order with parents first
compares beginnings of names.

* `Section.isPlain` — there is nothing to trim; `isBelow_iff_isPlain` — exactly then a section is
  below the one that is its parent.
* `families` — the sections in groups, one behind the other in the order with parents first:
  `parentFirst_eq_flatMap`.  `exists_family_iff` — which sections are grouped below another one.
* `Catalogue.Kinship` — how lists and groups agree after every run: `kinship_run`.
  `exists_listed_aside` — a section that is listed, but not grouped.
-/

namespace TexSymbols

open Section

variable {p s x : Section} {sections rest : List Section} {family : Section × List Section}

namespace Section

/-- Whether there is nothing to trim before the last slash of the name. -/
def isPlain (s : Section) : Bool :=
  (Text.splitLast '/' s.name).all fun parts => Text.trim parts.1 = parts.1

/-- **A section is below its parent exactly if there is nothing to trim.** -/
theorem isBelow_iff_isPlain (h : s.parent = some p.name) : s.isBelow p = true ↔ s.isPlain = true := by
  obtain ⟨⟨before, last⟩, hsplit, hbefore⟩ := Option.map_eq_some_iff.1 h
  dsimp only at hbefore
  have hslash : isBlank '/' = false := by decide
  rw [isBelow_iff, isPlain, hsplit, Option.all_some, decide_eq_true_eq,
    Text.splitLast_eq_some hsplit, ← hbefore, Text.trim_concat_prefix_iff hslash]

end Section

/-! ## Families -/

/-- The sections in groups: the first one with all later ones below it, and so on with the rest. -/
def families : List Section → List (Section × List Section)
  | [] => []
  | s :: rest => (s, s.below rest) :: families (s.aside rest)
termination_by sections => sections.length
decreasing_by exact Nat.lt_succ_of_le (List.length_filter_le ..)

theorem parentFirst_eq_flatMap (sections : List Section) :
    parentFirst sections = (families sections).flatMap fun family => family.1 :: family.2 := by
  fun_induction families sections with
  | case1 => rw [parentFirst, List.flatMap_nil]
  | case2 s rest ih => rw [parentFirst, ih, List.flatMap_cons, List.cons_append]

/-- **What is grouped is below the first one of its group, and comes after it.** -/
theorem isBelow_of_mem_families (h : family ∈ families sections) (hs : s ∈ family.2) :
    s.isBelow family.1 = true ∧ [family.1, s].Sublist sections := by
  fun_induction families sections with
  | case1 => cases h
  | case2 x rest ih =>
    rcases List.mem_cons.1 h with rfl | h
    · obtain ⟨hrest, hbelow⟩ := mem_below.1 hs
      exact ⟨hbelow, pair_sublist_cons_iff.2 (.inl ⟨rfl, hrest⟩)⟩
    · obtain ⟨hbelow, hpair⟩ := ih h
      exact ⟨hbelow, (hpair.trans List.filter_sublist).cons x⟩

/-- **A section is grouped below another one exactly if it comes after one that it is below.** -/
theorem exists_family_iff : (∃ family ∈ families sections, s ∈ family.2) ↔
    ∃ p, [p, s].Sublist sections ∧ s.isBelow p = true := by
  constructor
  · rintro ⟨family, hfamily, hs⟩
    obtain ⟨hbelow, hpair⟩ := isBelow_of_mem_families hfamily hs
    exact ⟨family.1, hpair, hbelow⟩
  · rintro ⟨p, hpair, hps⟩
    fun_induction families sections with
    | case1 => cases hpair
    | case2 x rest ih =>
      have hrest : s ∈ rest := by
        rcases pair_sublist_cons_iff.1 hpair with ⟨-, hs⟩ | hpair
        · exact hs
        · exact hpair.subset (by simp)
      cases hsx : s.isBelow x with
      | true => exact ⟨_, List.mem_cons_self, mem_below.2 ⟨hrest, hsx⟩⟩
      | false =>
        -- then `p` is not the first one, nor below it
        have hpx : p.isBelow x = false := isBelow_eq_false_of_above hps hsx
        rcases pair_sublist_cons_iff.1 hpair with ⟨rfl, -⟩ | hpair
        · rw [hps] at hsx
          cases hsx
        · obtain ⟨family, hfamily, hs⟩ := ih ((pair_sublist_aside_iff hpx hsx).2 hpair)
          exact ⟨family, List.mem_cons_of_mem _ hfamily, hs⟩

namespace Catalogue

variable {c : Catalogue}

/-- How the lists of sections and the order with parents first agree. -/
structure Kinship (c : Catalogue) : Prop where
  /-- A section is listed by those whose name stands before the last slash of its own, but for
  blanks at the ends. -/
  listed_iff : ∀ o ∈ c.sections.values, ∀ name, name ∈ o.subs ↔
    name ∈ c.sections.keys ∧ ∃ before last,
      Text.splitLast '/' name = some (before, last) ∧ Text.trim before = o.name
  /-- What is listed is below exactly if there are no such blanks. -/
  below_iff : ∀ o ∈ c.sections.values, ∀ s ∈ c.sections.values, s.name ∈ o.subs →
    (s.isBelow o = true ↔ s.isPlain = true)
  /-- The order is one of groups: a section, and sections below it that come after it. -/
  order_eq : c.sectionsParentFirst =
    (families c.sections.values).flatMap fun family => family.1 :: family.2
  grouped_below : ∀ family ∈ families c.sections.values, ∀ s ∈ family.2,
    s.isBelow family.1 = true ∧ [family.1, s].Sublist c.sections.values
  /-- A section is grouped below another one exactly if it comes after one that it is below. -/
  grouped_iff : ∀ s, (∃ family ∈ families c.sections.values, s ∈ family.2) ↔
    ∃ p, [p, s].Sublist c.sections.values ∧ s.isBelow p = true
  /-- So it is if it comes after the section that lists it, and there are no such blanks. -/
  grouped_of_listed : ∀ o s, [o, s].Sublist c.sections.values → s.name ∈ o.subs →
    s.isPlain = true → ∃ family ∈ families c.sections.values, s ∈ family.2

theorem WellFormed.kinship (h : c.WellFormed) : c.link.Kinship := by
  have hbelow : ∀ o ∈ c.link.sections.values, ∀ s : Section, s.name ∈ o.subs →
      (s.isBelow o = true ↔ s.isPlain = true) :=
    fun o ho s hs => isBelow_iff_isPlain ((mem_subs_link ho).1 hs).2
  refine
    { listed_iff := fun o ho name => ?_
      below_iff := fun o ho s _ hs => hbelow o ho s hs
      order_eq := parentFirst_eq_flatMap _
      grouped_below := fun family hfamily s hs => isBelow_of_mem_families hfamily hs
      grouped_iff := fun s => exists_family_iff
      grouped_of_listed := fun o s hpair hs hplain => ?_ }
  · rw [mem_subs_link ho, h.link.names_eq_keys, parentName, Option.map_eq_some_iff, Prod.exists]
  · have ho : o ∈ c.link.sections.values := hpair.subset List.mem_cons_self
    exact exists_family_iff.2 ⟨o, hpair, (hbelow o ho s hs).2 hplain⟩

/-- **How lists and order agree after linking at the end of any run.** -/
theorem kinship_run (knownTags : List Text) (operations : List Operation) :
    ((new knownTags).run operations).link.Kinship :=
  ((wellFormed_new knownTags).run operations).kinship

/-- A section whose name has a blank before the slash, behind another one. -/
def blankBeforeSlash : List Operation :=
  [.read "t.tex" "%:section:a : A\n%:section:x : X\n%:section:a /b : B\n" none]

/-- It is listed by the section before, and comes after it, but is not grouped below anything. -/
theorem exists_listed_aside :
    ((new []).run blankBeforeSlash).link.sectionsParentFirst.map Section.name = ["a", "x", "a /b"] ∧
    ∃ o ∈ ((new []).run blankBeforeSlash).link.sections.values,
      ∃ s ∈ ((new []).run blankBeforeSlash).link.sections.values,
        s.name ∈ o.subs ∧ [o, s].Sublist ((new []).run blankBeforeSlash).link.sections.values ∧
          s.isBelow o = false ∧
          ∀ family ∈ families ((new []).run blankBeforeSlash).link.sections.values,
            s ∉ family.2 := by
  decide +kernel

end Catalogue

end TexSymbols
