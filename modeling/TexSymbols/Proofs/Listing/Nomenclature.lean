import TexSymbols.Proofs.Listing.Nomenclature.Table

/-!
# The headings of the nomenclature

* `Nomenclature.headings_table` — the headings of the table are those of the sections that get one,
  in the order of `sectionsParentFirst`.
* `Catalogue.SectionOrder` — where a section and its heading stand; `sectionOrder_run` — after
  every run.
-/

namespace TexSymbols

namespace Nomenclature

variable {usages : Option UsageMap} {c : Catalogue} {t : LongTable}

/-- **The table has the headings of the sections that get one, parents first.** -/
theorem headings_table (h : table usages c = .ok t) :
    t.rows.filter LongTable.Row.isHeading =
      (c.sectionsParentFirst.filter (getsHeading c)).flatMap heading := by
  rw [table_eq, failsOr_eq_ok_iff] at h
  rw [← h.2]
  exact headings_tableOf usages c

end Nomenclature

namespace Catalogue

variable {c : Catalogue}

/-- Where sections and their headings stand, given the order in which the sections were declared or
reserved. -/
structure SectionOrder (c : Catalogue) : Prop where
  /-- Every section has its place. -/
  perm : c.sectionsParentFirst.Perm c.sections.values
  /-- Of two sections, one below the other, the upper one comes first exactly if it came first, and
  the very first of the lower one and those above it is not below it. -/
  before_iff : ∀ p ∈ c.sections.values, ∀ s ∈ c.sections.values, s.isBelow p = true →
    ([p, s].Sublist c.sectionsParentFirst ↔
      [p, s].Sublist c.sections.values ∧
        ∀ first ∈ (s.path c.sections.values).head?, first.isBelow p = false)
  /-- So parents come first if none of them came behind a section below it. -/
  parents_first :
    (∀ p ∈ c.sections.values, ∀ s ∈ c.sections.values, s.isBelow p = true →
      [p, s].Sublist c.sections.values) →
    ∀ p ∈ c.sections.values, ∀ s ∈ c.sections.values, s.isBelow p = true →
      [p, s].Sublist c.sectionsParentFirst
  /-- Headings stand in the nomenclature in this order. -/
  headings_eq : ∀ usages t, Nomenclature.table usages c = .ok t →
    t.rows.filter LongTable.Row.isHeading =
      (c.sectionsParentFirst.filter (Nomenclature.getsHeading c)).flatMap Nomenclature.heading

theorem WellFormed.sectionOrder (h : c.WellFormed) : c.SectionOrder where
  perm := perm_parentFirst _
  before_iff _ hp _ hs hps := pair_sublist_parentFirst_iff h.names_nodup hp hs hps
  parents_first hdeclared _ hp _ hs hps :=
    pair_sublist_parentFirst h.names_nodup hdeclared hp hs hps
  headings_eq _ _ ht := Nomenclature.headings_table ht

/-- **Where sections and headings stand after any run.** -/
theorem sectionOrder_run (knownTags : List Text) (operations : List Operation) :
    ((new knownTags).run operations).SectionOrder :=
  ((wellFormed_new knownTags).run operations).sectionOrder

/-- A section comes before the one above it, and another one below both comes last. -/
def grandchildLast : List Operation :=
  [.read "t.tex" "%:section:a/b : B\n%:section:a : A\n%:section:a/b/c : C\n" none]

/-- Then both stand before the section above them, also the one that was declared behind it. -/
theorem exists_below_first :
    ((new []).run grandchildLast).sectionsParentFirst.map Section.name = ["a/b", "a/b/c", "a"] ∧
    ∃ p ∈ ((new []).run grandchildLast).sections.values,
      ∃ s ∈ ((new []).run grandchildLast).sections.values,
        s.isBelow p = true ∧ [p, s].Sublist ((new []).run grandchildLast).sections.values ∧
          ¬ [p, s].Sublist ((new []).run grandchildLast).sectionsParentFirst := by
  decide +kernel

end Catalogue

end TexSymbols
