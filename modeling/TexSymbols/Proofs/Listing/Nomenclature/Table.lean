import TexSymbols.Proofs.Catalogue.Linking
import TexSymbols.Proofs.Listing.Nomenclature.Symbols
import TexSymbols.Proofs.Tex.Printed
import TexSymbols.Proofs.Usage.Merge

/-!
# The table of the nomenclature

* `Nomenclature.getsHeading` — the sections that have a heading in the table.
* `Nomenclature.rowOf`, `blockOf` — the row of a symbol and the rows of a section.
* `Nomenclature.table_eq` — the first symbol that is refused, or else the rows of all sections.
* `Nomenclature.headings_tableOf` — the headings among these rows.
* `Nomenclature.headingText`, `symbolText`, `tableText` — the heading of a section, the line of a
  symbol and the whole table, character by character; `render_tableOf` — it is printed so.
* `Nomenclature.TableAccount` — when there is a table, and what it says then; `tableAccount_run` —
  after every run, with any usage map.
-/

namespace TexSymbols

/-- Whether the row belongs to a heading. -/
def LongTable.Row.isHeading : LongTable.Row → Bool
  | .cells _ => false
  | _ => true

namespace Nomenclature

open LongTable (Row)

variable {usages : Option UsageMap} {c : Catalogue} {s : Symbol} {o : Section}

/-- Whether the section has a heading in the table: there are symbols to list, or sections below. -/
def getsHeading (c : Catalogue) (o : Section) : Bool :=
  ((c.symbolsOf o).filter isListed ≠ []) || (o.subs ≠ [])

/-! ## Rows by symbol and section -/

/-- The symbols of a section that are in the table. -/
def listed (c : Catalogue) (o : Section) : List Symbol := (c.symbolsOf o).filter isListed

/-- All symbols of the table: those of one section after the other, parents first. -/
def tableSymbols (c : Catalogue) : List Symbol := c.sectionsParentFirst.flatMap (listed c)

/-- The row of a symbol: label, explanation, its cross-reference twice, and the label of the first
use. -/
def rowOf (usages : Option UsageMap) (s : Symbol) : Row :=
  .cells
    [s.label,
      if IsUsed usages s.command then s.explanation else "\\unused " ++ s.explanation,
      if s.target = [] then [] else "$\\to$" ++ Tex.applied "\\cref" s.target,
      if s.target = [] then [] else Tex.applied "\\pageref" s.target,
      match firstUse? usages s.command with
      | some label => Tex.applied "\\cref" label
      | none => []]

/-- The rows of a section: its heading, if it has one, and its symbols. -/
def blockOf (usages : Option UsageMap) (c : Catalogue) (o : Section) : List Row :=
  (if getsHeading c o then heading o else []) ++ (listed c o).map (rowOf usages)

/-- The row of the titles, and below it the rows of the sections, parents first. -/
def tableOf (usages : Option UsageMap) (c : Catalogue) : LongTable :=
  ⟨["l", "p\x7b6cm\x7d", "l", "r", "l"],
    .cells ["symbol", "meaning", "defined in", "first use"] ::
      c.sectionsParentFirst.flatMap (blockOf usages c)⟩

theorem symbolRow_eq (usages : Option UsageMap) (s : Symbol) :
    symbolRow usages s s.label s.explanation = failsOr s.refusal? (rowOf usages s) := by
  rw [symbolRow, Symbol.reference_eq, bind_failsOr, rowOf, isUsed_eq]
  congr 4
  · by_cases h : IsUsed usages s.command <;> simp [h]
  · congr 2
    cases firstUse? usages s.command <;> rfl

theorem symbolRows_eq (h : isListed s = true) :
    symbolRows usages s = failsOr s.refusal? [rowOf usages s] := by
  rw [isListed_eq, Bool.and_eq_true] at h
  rw [symbolRows, Symbol.labelAndText?_eq, if_pos h.2]
  show (symbolRow usages s s.label s.explanation >>= fun row => pure [row]) = _
  rw [symbolRow_eq, bind_failsOr]

theorem getsHeading_eq_false_iff : getsHeading c o = false ↔ listed c o = [] ∧ o.subs = [] := by
  simp [getsHeading, listed]

theorem sectionRows_eq (usages : Option UsageMap) (c : Catalogue) (o : Section) :
    sectionRows usages c o =
      failsOr ((listed c o).findSome? Symbol.refusal?) (blockOf usages c o) := by
  unfold sectionRows
  by_cases hnone : (c.symbolsOf o).filter isListed = [] ∧ o.subs = []
  · rw [if_pos hnone, blockOf, getsHeading_eq_false_iff.2 hnone, listed, hnone.1]
    rfl
  · have hgets : getsHeading c o = true := by
      rwa [← Bool.not_eq_false, getsHeading_eq_false_iff]
    have hrows : (listed c o).mapM (symbolRows usages) = failsOr _ _ :=
      mapM_eq_failsOr fun s hs => symbolRows_eq (List.mem_filter.1 hs).2
    rw [if_neg hnone]
    show ((listed c o).mapM (symbolRows usages) >>= fun rows =>
      pure (heading o ++ rows.flatten)) = _
    rw [hrows, bind_failsOr, blockOf, if_pos hgets, ← List.flatMap_def, ← List.map_eq_flatMap]

/-- **The table holds the rows of all sections, unless a symbol is refused.** -/
theorem table_eq (usages : Option UsageMap) (c : Catalogue) :
    table usages c =
      failsOr ((tableSymbols c).findSome? Symbol.refusal?) (tableOf usages c) := by
  have hrows : c.sectionsParentFirst.mapM (sectionRows usages c) = failsOr _ _ :=
    mapM_eq_failsOr fun o _ => sectionRows_eq usages c o
  rw [table, hrows, bind_failsOr, tableSymbols, findSome?_flatMap, tableOf, List.flatMap_def]

theorem render_table (usages : Option UsageMap) (c : Catalogue) :
    (render .table usages c).2 =
      failsOr ((tableSymbols c).findSome? Symbol.refusal?) (tableOf usages c).render := by
  show (table usages c).map LongTable.render = _
  rw [table_eq, map_failsOr]

/-! ## What stands where -/

theorem isHeading_heading (o : Section) : ∀ row ∈ heading o, row.isHeading = true := by
  intro row hrow
  rw [heading] at hrow
  split at hrow
  · rcases List.mem_pair.1 hrow with rfl | rfl <;> rfl
  · rw [List.mem_singleton.1 hrow]
    rfl

theorem headings_blockOf (usages : Option UsageMap) (c : Catalogue) (o : Section) :
    (blockOf usages c o).filter Row.isHeading = if getsHeading c o then heading o else [] := by
  have hcells : ((listed c o).map (rowOf usages)).filter Row.isHeading = [] := by
    rw [List.filter_eq_nil_iff, List.forall_mem_map]
    intro s _
    exact Bool.false_ne_true
  rw [blockOf, List.filter_append, hcells, List.append_nil]
  split
  · exact List.filter_eq_self.2 (isHeading_heading o)
  · rfl

/-- **The table has the headings of the sections that get one, parents first.** -/
theorem headings_tableOf (usages : Option UsageMap) (c : Catalogue) :
    (tableOf usages c).rows.filter Row.isHeading =
      (c.sectionsParentFirst.filter (getsHeading c)).flatMap heading := by
  rw [tableOf, List.filter_cons_of_neg (by simp [Row.isHeading]), List.filter_flatMap]
  induction c.sectionsParentFirst with
  | nil => rfl
  | cons o sections ih =>
    rw [List.flatMap_cons, headings_blockOf, ih]
    cases hgets : getsHeading c o <;> simp [hgets]

/-! ## Printed lines -/

/-- The symbols of a section that are in the table, in the order in which they came. -/
def eligible (c : Catalogue) (o : Section) : List Symbol :=
  c.symbols.values.filter fun s => s.owner = o.name ∧ Eligible s

/-- The title of a section: its description, or a dash. -/
def titleText (o : Section) : Text := if o.description = [] then "-" else o.description

/-- The heading of a section: centred if it is below another section, otherwise on the left and
above a rule. -/
def headingText (o : Section) : Text :=
  if '/' ∈ o.name then
    "\\multicolumn\x7b4\x7d\x7bc\x7d\x7b" ++
      ("\\nomencsubsectionname\x7b" ++ titleText o ++ "\x7d") ++ "\x7d" ++ " \\\\\n"
  else
    "\\multicolumn\x7b4\x7d\x7bl\x7d\x7b" ++
      ("\\nomencsectionname\x7b" ++ titleText o ++ "\x7d") ++ "\x7d" ++ " \\\\\n" ++ "\\hline\n"

/-- The explanation of a symbol, with the marker in front of it if the symbol is not used. -/
def meaningText (usages : Option UsageMap) (s : Symbol) : Text :=
  if IsUsed usages s.command then s.explanation else "\\unused " ++ s.explanation

/-- The reference to where a symbol is defined. -/
def targetText (s : Symbol) : Text :=
  if s.target = [] then [] else "$\\to$" ++ ("\\cref\x7b" ++ s.target ++ "\x7d")

/-- The page of it. -/
def pageText (s : Symbol) : Text :=
  if s.target = [] then [] else "\\pageref\x7b" ++ s.target ++ "\x7d"

/-- The label of the first use that has one. -/
def firstLabelOf (usages : Option UsageMap) (command : Text) : Option Text :=
  usages.bind fun m => (UsageMap.usesOf m command).findSome? Use.label

/-- The reference to the first use that has a label. -/
def firstUseText (usages : Option UsageMap) (s : Symbol) : Text :=
  match firstLabelOf usages s.command with
  | some label => "\\cref\x7b" ++ label ++ "\x7d"
  | none => []

/-- The line of a symbol. -/
def symbolText (usages : Option UsageMap) (s : Symbol) : Text :=
  s.label ++ " & " ++ meaningText usages s ++ " & " ++ targetText s ++ " & " ++ pageText s ++
    " & " ++ firstUseText usages s ++ " \\\\\n"

/-- The lines of a section: its heading, unless there are neither symbols of it in the table nor
sections below it, and those of its symbols. -/
def sectionText (usages : Option UsageMap) (c : Catalogue) (o : Section) : Text :=
  (if eligible c o = [] ∧ o.subs = [] then [] else headingText o) ++
    (eligible c o).flatMap (symbolText usages)

/-- The table. -/
def tableText (usages : Option UsageMap) (c : Catalogue) : Text :=
  "\\begin\x7blongtable\x7d\x7blp\x7b6cm\x7dlrl\x7d\n" ++
    ("symbol & meaning & defined in & first use & " ++ " \\\\\n" ++
      c.sectionsParentFirst.flatMap (sectionText usages c)) ++
    "\\end\x7blongtable\x7d\n"

/-! ### The rows of the table are printed as these lines -/

theorem listed_eq (h : c.WellFormed) (ho : o ∈ c.sections.values) : listed c o = eligible c o := by
  rw [listed, h.symbolsOf_eq ho, Catalogue.ownedBy, List.filter_filter]
  refine List.filter_congr fun s _ => ?_
  rw [isListed_eq_decide, Bool.and_comm, ← Bool.decide_and]

theorem firstUse?_eq (usages : Option UsageMap) (command : Text) :
    firstUse? usages command = firstLabelOf usages command := by
  cases usages with
  | none => rfl
  | some m =>
    show ((m.find? command).map firstLabelled).join = firstLabelled ((m.find? command).getD [])
    cases m.find? command <;> rfl

theorem rowOf_eq (usages : Option UsageMap) (s : Symbol) :
    rowOf usages s = .cells
      [s.label, meaningText usages s, targetText s, pageText s, firstUseText usages s] := by
  unfold rowOf firstUseText
  rw [firstUse?_eq]
  rfl

theorem rowOf_render (usages : Option UsageMap) (s : Symbol) :
    Row.render 5 (rowOf usages s) = symbolText usages s := by
  have hcells : ∀ a b c d e : Text, Row.render 5 (.cells [a, b, c, d, e]) =
      a ++ " & " ++ b ++ " & " ++ c ++ " & " ++ d ++ " & " ++ e ++ " \\\\\n" := by
    intro a b c d e
    have hrow : Row.render 5 (.cells [a, b, c, d, e]) = _ := Row.render_cells rfl
    rw [hrow]
    simp only [Text.join, List.append_assoc]
  rw [rowOf_eq, hcells]
  rfl

theorem heading_render (o : Section) : (heading o).flatMap (Row.render 5) = headingText o := by
  have hcentred : ("\\multicolumn\x7b4\x7d\x7bc\x7d\x7b" : Text) =
      "\\multicolumn\x7b" ++ Nat.toDigits 10 4 ++ "\x7d\x7b" ++ "c" ++ "\x7d\x7b" := rfl
  have hleft : ("\\multicolumn\x7b4\x7d\x7bl\x7d\x7b" : Text) =
      "\\multicolumn\x7b" ++ Nat.toDigits 10 4 ++ "\x7d\x7b" ++ "l" ++ "\x7d\x7b" := rfl
  unfold heading headingText
  rw [Section.isTopLevel_eq]
  by_cases h : '/' ∈ o.name
  · rw [if_neg (by simpa using h), if_pos h, List.flatMap_singleton, Row.render_spanning, hcentred]
    rfl
  · rw [if_pos (by simpa using h), if_neg h, List.flatMap_cons, Row.render_spanning, hleft]
    rfl

theorem blockOf_render (h : c.WellFormed) (ho : o ∈ c.sections.values) (usages : Option UsageMap) :
    (blockOf usages c o).flatMap (Row.render 5) = sectionText usages c o := by
  have hgets : (if getsHeading c o then heading o else []).flatMap (Row.render 5) =
      if eligible c o = [] ∧ o.subs = [] then [] else headingText o := by
    rw [← listed_eq h ho, ← heading_render]
    by_cases hgets : listed c o = [] ∧ o.subs = []
    · rw [if_pos hgets, getsHeading_eq_false_iff.2 hgets]
      rfl
    · rw [if_neg hgets, if_pos (by rwa [← Bool.not_eq_false, getsHeading_eq_false_iff])]
  rw [blockOf, List.flatMap_append, hgets, List.flatMap_map, listed_eq h ho, sectionText]
  exact congrArg _ (List.flatMap_congr fun s _ => rowOf_render usages s)

theorem render_tableOf (h : c.WellFormed) (usages : Option UsageMap) :
    (tableOf usages c).render = tableText usages c := by
  have htitles : Row.render 5 (.cells ["symbol", "meaning", "defined in", "first use"]) =
      "symbol & meaning & defined in & first use & " ++ " \\\\\n" := rfl
  have hrows : (c.sectionsParentFirst.flatMap (blockOf usages c)).flatMap (Row.render 5) =
      c.sectionsParentFirst.flatMap (sectionText usages c) := by
    rw [List.flatMap_assoc]
    exact List.flatMap_congr fun o ho =>
      blockOf_render h ((perm_parentFirst _).mem_iff.1 ho) usages
  unfold tableText
  rw [← hrows, ← htitles]
  rfl

/-- When there is a table, and what it says. -/
structure TableAccount (c : Catalogue) (usages : Option UsageMap) : Prop where
  /-- Every section has one place in the order, and so has every symbol that is to be listed. -/
  sections_perm : c.sectionsParentFirst.Perm c.sections.values
  symbols_perm : (c.sectionsParentFirst.flatMap (eligible c)).Perm
    (c.symbols.values.filter fun s => Eligible s)
  /-- The symbols of a section are in the order in which they came. -/
  increasing : ∀ o ∈ c.sections.values, ((eligible c o).map Symbol.order).Pairwise (· < ·)
  /-- There is no table exactly if some symbol of it has a cross-reference without a prefix. -/
  fails_iff : (∃ e, (render .table usages c).2 = .error e) ↔
    ∃ s ∈ c.symbols.values, Eligible s ∧ ∃ t, s.RefersUnprefixed t
  /-- The error is that of the first one. -/
  error_iff : ∀ e, (render .table usages c).2 = .error e ↔
    ∃ before s after t, c.sectionsParentFirst.flatMap (eligible c) = before ++ s :: after ∧
      (∀ r ∈ before, ∀ t, ¬ r.RefersUnprefixed t) ∧ s.RefersUnprefixed t ∧
        e = .unprefixedReference s.command t
  /-- Otherwise the text is a line of titles, and then section by section a heading and one line
  for each symbol; there is no heading exactly if there are neither symbols nor sections below. -/
  text_eq : (∀ s ∈ c.symbols.values, Eligible s → ∀ t, ¬ s.RefersUnprefixed t) →
    (render .table usages c).2 = .ok
      ("\\begin\x7blongtable\x7d\x7blp\x7b6cm\x7dlrl\x7d\n" ++
        ("symbol & meaning & defined in & first use & " ++ " \\\\\n" ++
          c.sectionsParentFirst.flatMap fun o =>
            (if eligible c o = [] ∧ o.subs = [] then [] else headingText o) ++
              (eligible c o).flatMap (symbolText usages)) ++
        "\\end\x7blongtable\x7d\n")
  /-- In the usages of documents the label of the first use is that of the first appearance in any
  of them that is on a line with a label, or below one. -/
  firstLabelOf_documents : ∀ documents command, firstLabelOf (some (usesInAll documents)) command =
    documents.findSome? fun d => firstLabel? d.2 command

end Nomenclature

namespace Catalogue

open Nomenclature

variable {c : Catalogue}

theorem WellFormed.tableSymbols_eq (h : c.WellFormed) :
    tableSymbols c = c.sectionsParentFirst.flatMap (eligible c) :=
  List.flatMap_congr fun _ ho => listed_eq h ((perm_parentFirst _).mem_iff.1 ho)

theorem WellFormed.tableSymbols_perm (h : c.WellFormed) :
    (tableSymbols c).Perm (c.symbols.values.filter fun s => Eligible s) := by
  have hall := h.perm_symbolsOf (perm_parentFirst c.sections.values)
  have heq : tableSymbols c =
      (c.sectionsParentFirst.flatMap c.symbolsOf).filter fun s => Eligible s := by
    rw [List.filter_flatMap, tableSymbols]
    exact List.flatMap_congr fun o _ => List.filter_congr fun s _ => isListed_eq_decide s
  rw [heq]
  exact hall.filter _

theorem WellFormed.mem_tableSymbols_iff (h : c.WellFormed) {s : Symbol} :
    s ∈ tableSymbols c ↔ s ∈ c.symbols.values ∧ Eligible s := by
  rw [h.tableSymbols_perm.mem_iff, List.mem_filter, decide_eq_true_iff]

theorem WellFormed.tableAccount (h : c.WellFormed) (usages : Option UsageMap) :
    TableAccount c usages where
  sections_perm := perm_parentFirst _
  symbols_perm := by
    rw [← h.tableSymbols_eq]
    exact h.tableSymbols_perm
  increasing o _ := h.symbols_increasing.sublist (List.filter_sublist.map _)
  fails_iff := by
    simp only [render_table, failsOr_eq_error_iff, exists_findSome?_refusal?,
      h.mem_tableSymbols_iff, and_assoc]
  error_iff e := by
    rw [render_table, failsOr_eq_error_iff, findSome?_refusal?_eq_some_iff, h.tableSymbols_eq]
  text_eq hprefixed := by
    rw [render_table, failsOr_eq_ok_iff, findSome?_refusal?_eq_none_iff]
    refine ⟨fun s hs => ?_, render_tableOf h usages⟩
    obtain ⟨hs, heligible⟩ := h.mem_tableSymbols_iff.1 hs
    exact hprefixed s hs heligible
  firstLabelOf_documents documents command := firstLabelled_usesInAll documents command

/-- **The table after any run, with any usage map.** -/
theorem tableAccount_run (knownTags : List Text) (operations : List Operation)
    (usages : Option UsageMap) :
    TableAccount ((new knownTags).run operations) usages :=
  ((wellFormed_new knownTags).run operations).tableAccount usages

end Catalogue

end TexSymbols
