import TexSymbols.Listing.Table
import TexSymbols.Proofs.Catalogue.Linking
import TexSymbols.Proofs.Listing.Nomenclature.Symbols
import TexSymbols.Proofs.Listing.Order
import TexSymbols.Proofs.Tex.Printed

/-!
# What a table shows

* `TableStyle.Portion` — a section and the symbols that are shown of it; `TableStyle.portions` —
  those of a table.
* `TableStyle.headingText`, `symbolText`, `portionText` — the lines of a section and of a symbol,
  character by character.
* `TableStyle.render_eq` — a table is its portions one after the other.
* `TableStyle.forall₂_rearranged` — another order only rearranges the portions and their symbols.
* `Catalogue.TableAccount`, `Catalogue.tables_run` — what tables show after every run, in any order.
-/

namespace TexSymbols

namespace TableStyle

open LongTable (Row)

variable {style : TableStyle} {order : Order} {c : Catalogue}

/-- A section and the symbols that a table shows of it. -/
structure Portion where
  owner : Section
  symbols : List Symbol

/-- The same section with the same symbols, in whatever order. -/
def Portion.Rearranged (p q : Portion) : Prop := p.owner = q.owner ∧ p.symbols.Perm q.symbols

/-- Whether there are rows for a symbol: the minimal table leaves out those with arguments. -/
def shows : TableStyle → Symbol → Bool
  | full _, _ => true
  | minimal, s => s.nargs == 0

/-- What a table shows, section by section. -/
def portions (style : TableStyle) (order : Order) (c : Catalogue) : List Portion :=
  (order.sections c).map fun o => ⟨o, (order.symbols c o).filter style.shows⟩

/-! ## Printed lines -/

/-- The rules below the heading of a section: one if it is below another section, otherwise two. -/
def rulesText (o : Section) : Text := if '/' ∈ o.name then "\\hline\n" else "\\hline\n\\hline\n"

/-- The title of a section, across two columns. -/
def titleText (title : Text) : Text :=
  "\\multicolumn\x7b2\x7d\x7bl\x7d\x7b" ++ title ++ "\x7d" ++ " \\\\\n"

/-- The heading of a section. -/
def headingText (style : TableStyle) (o : Section) : Text :=
  match style with
  | full _ =>
    " &  &  \\\\\n" ++
      (Tex.printedSource o.name ++ " & " ++ titleText ("\\emph\x7b" ++ o.description ++ "\x7d")) ++
        rulesText o
  | minimal => titleText o.description ++ rulesText o

/-- How a command looks: as a formula, unless that is suppressed. -/
def summaryText (s : Symbol) : Text :=
  if ("nosummary" : Text) ∈ s.attributes.keys then "(nosummary)" else "$" ++ s.command ++ "$"

/-- Dots for the arguments of a symbol. -/
def dotsText (s : Symbol) : Text := List.intercalate "," (List.replicate s.nargs "...")

/-- The first line of a symbol in the full table: its source, how it looks if it has no arguments,
and its description. -/
def sourceText (s : Symbol) : Text :=
  if s.nargs = 0 then
    Tex.printedSource s.command ++ " & " ++ summaryText s ++ " & " ++ s.comment ++ " \\\\\n"
  else
    Tex.printedSource (s.command ++ "\x7b" ++ dotsText s ++ "\x7d") ++ " & " ++ " & " ++
      s.comment ++ " \\\\\n"

/-- The source of a sample, in small letters. -/
def smallSourceText (sample : Text) : Text :=
  "\x7b\\small " ++ ("\\texttt\x7b" ++ sample.flatMap Tex.printedChar ++ "\x7d") ++ "\x7d"

/-- A sample in a grey box of the given width, above its source. -/
def boxText (width sample : Text) : Text :=
  "\\fbox\x7b" ++
    ("\x7b\\color[rgb]\x7b0.5,0.5,0.5\x7d" ++
      ("\\begin\x7bminipage\x7d\x7b" ++ width ++ "\x7d" ++ sample ++ "\\par " ++
        smallSourceText sample ++ "\\end\x7bminipage\x7d") ++
      "\x7d") ++
    "\x7d"

/-- The line of a sample. -/
def sampleText (width sample : Text) : Text :=
  " & " ++ " & " ++ boxText width sample ++ " \\\\\n"

/-- The lines of a symbol. -/
def symbolText (style : TableStyle) (s : Symbol) : Text :=
  match style with
  | full width => sourceText s ++ (s.sample.map (sampleText width)).getD []
  | minimal =>
    if s.nargs = 0 then "$" ++ s.command ++ "$" ++ " & " ++ s.comment ++ " \\\\\n" else []

/-- The heading of the section, and behind it the lines of its symbols. -/
def portionText (style : TableStyle) (p : Portion) : Text :=
  style.headingText p.owner ++ p.symbols.flatMap style.symbolText

/-- The line that opens the table. -/
def openingText : TableStyle → Text
  | full _ => "\\begin\x7blongtable\x7d\x7blll\x7d\n"
  | minimal => "\\begin\x7blongtable\x7d\x7bcl\x7d\n"

/-! ### The rows of a table are printed as these lines -/

theorem rules_render (columns : Nat) (o : Section) :
    (rules o).flatMap (Row.render columns) = rulesText o := by
  rw [rules, rulesText, Section.isTopLevel_eq]
  by_cases h : '/' ∈ o.name
  · rw [if_neg (by simpa using h), if_pos h]
    rfl
  · rw [if_pos (by simpa using h), if_neg h]
    rfl

theorem title_render (columns : Nat) (lead : List Text) (title : Text) :
    Row.render columns (.spanning lead 2 "l" title) =
      lead.flatMap (· ++ (" & " : Text)) ++ titleText title := by
  have hopen : ("\\multicolumn\x7b2\x7d\x7bl\x7d\x7b" : Text) =
      "\\multicolumn\x7b" ++ Nat.toDigits 10 2 ++ "\x7d\x7b" ++ "l" ++ "\x7d\x7b" := rfl
  unfold titleText
  rw [Row.render_spanning, hopen]
  simp only [List.append_assoc]

theorem heading_render (style : TableStyle) (o : Section) :
    (style.heading o).flatMap (Row.render style.columns.length) = style.headingText o := by
  cases style with
  | full width =>
    have hblank : Row.render 3 (.cells [[], [], []]) = " &  &  \\\\\n" := Row.render_cells rfl
    have hemph : Tex.emphasised o.description = "\\emph\x7b" ++ o.description ++ "\x7d" := rfl
    show (_ :: _ :: rules o).flatMap (Row.render 3) = _
    rw [List.flatMap_cons, List.flatMap_cons, hblank, title_render, rules_render,
      List.flatMap_singleton, Tex.asTyped_eq, hemph]
    unfold headingText
    simp only [List.append_assoc]
  | minimal =>
    show (_ :: rules o).flatMap (Row.render 2) = _
    rw [List.flatMap_cons, title_render, rules_render]
    rfl

theorem dottedCall_eq (s : Symbol) :
    dottedCall s = s.command ++ "\x7b" ++ dotsText s ++ "\x7d" := by
  rw [dottedCall, Text.join_eq_intercalate]
  rfl

theorem boxedSample_eq (width sample : Text) : boxedSample width sample = boxText width sample := by
  have hopen : ("\x7b\\color[rgb]\x7b0.5,0.5,0.5\x7d" : Text) =
      "\x7b\\color[rgb]\x7b" ++ "0.5,0.5,0.5" ++ "\x7d" := rfl
  unfold boxedSample boxText smallSourceText
  rw [Tex.coloured_eq Tex.printedParts_grey, Tex.escape_eq, hopen]
  rfl

theorem three_render (first second third : Text) :
    Row.render 3 (.cells [first, second, third]) =
      first ++ " & " ++ second ++ " & " ++ third ++ " \\\\\n" := by
  have hrow : Row.render 3 (.cells [first, second, third]) = _ := Row.render_cells rfl
  rw [hrow]
  simp only [Text.join, List.append_assoc]

theorem fullRows_render (width : Text) (s : Symbol) :
    (fullRows width s).flatMap (Row.render 3) =
      sourceText s ++ (s.sample.map (sampleText width)).getD [] := by
  have hsummary : (if s.hasAttribute Tag.unrendered then ("(nosummary)" : Text)
      else Tex.math s.command) = summaryText s :=
    if_congr OrderedMap.contains_iff rfl rfl
  have hsource : Row.render 3 (.cells
      (if s.nargs = 0 then
        [Tex.asTyped s.command,
          if s.hasAttribute Tag.unrendered then "(nosummary)" else Tex.math s.command, s.comment]
      else [Tex.asTyped (dottedCall s), [], s.comment])) = sourceText s := by
    unfold sourceText
    by_cases h : s.nargs = 0
    · rw [if_pos h, if_pos h, hsummary, three_render, Tex.asTyped_eq]
    · rw [if_neg h, if_neg h, three_render, Tex.asTyped_eq, dottedCall_eq, List.append_nil]
  unfold fullRows
  cases s.sample with
  | none =>
    show List.flatMap _ [_] = _
    rw [List.flatMap_singleton, hsource, Option.map_none, Option.getD_none, List.append_nil]
  | some sample =>
    show List.flatMap _ [_, _] = _
    rw [List.flatMap_cons, List.flatMap_singleton, hsource, three_render, boxedSample_eq]
    rfl

theorem minimalRows_render (s : Symbol) :
    (minimalRows s).flatMap (Row.render 2) = symbolText minimal s := by
  have hrow : Row.render 2 (.cells [Tex.math s.command, s.comment]) = _ := Row.render_cells rfl
  unfold minimalRows symbolText
  split
  · rw [List.flatMap_singleton, hrow]
    simp only [Text.join, Tex.math]
  · rfl

theorem symbolRows_render (style : TableStyle) (s : Symbol) :
    (style.symbolRows s).flatMap (Row.render style.columns.length) = style.symbolText s := by
  cases style with
  | full width => exact fullRows_render width s
  | minimal => exact minimalRows_render s

theorem shows_iff {s : Symbol} : style.shows s = true ↔ (style = .minimal → s.nargs = 0) := by
  cases style <;> simp [shows]

/-- A symbol that is not shown has no lines. -/
theorem symbolText_eq_nil {s : Symbol} (h : style.shows s = false) : style.symbolText s = [] := by
  cases style with
  | full width => cases h
  | minimal => exact if_neg (by simpa [shows] using h)

theorem flatMap_symbolText_filter (style : TableStyle) (symbols : List Symbol) :
    (symbols.filter style.shows).flatMap style.symbolText = symbols.flatMap style.symbolText := by
  induction symbols with
  | nil => rfl
  | cons s symbols ih =>
    rw [List.filter_cons, List.flatMap_cons, ← ih]
    cases hshows : style.shows s with
    | true => rw [if_pos rfl, List.flatMap_cons]
    | false => rw [if_neg Bool.false_ne_true, symbolText_eq_nil hshows, List.nil_append]

/-- **A table is printed portion by portion.** -/
theorem rows_render (style : TableStyle) (order : Order) (c : Catalogue) :
    (style.table order c).rows.flatMap (Row.render style.columns.length) =
      (style.portions order c).flatMap style.portionText := by
  rw [portions, List.flatMap_map, table, List.flatMap_assoc]
  refine List.flatMap_congr fun o _ => ?_
  rw [List.flatMap_append, heading_render, List.flatMap_assoc, portionText,
    flatMap_symbolText_filter]
  exact congrArg _ (List.flatMap_congr fun s _ => symbolRows_render style s)

/-- **The text of a table is that of its portions**, within the environment. -/
theorem render_eq (style : TableStyle) (order : Order) (c : Catalogue) :
    style.render order c =
      style.openingText ++ (style.portions order c).flatMap style.portionText ++
        "\\end\x7blongtable\x7d\n" := by
  have hopening : "\\begin\x7blongtable\x7d\x7b" ++ style.columns.flatten ++ "\x7d\n" =
      style.openingText := by
    cases style <;> rfl
  rw [← rows_render, ← hopening]
  rfl

theorem owners_portions (style : TableStyle) (order : Order) (c : Catalogue) :
    (style.portions order c).map Portion.owner = order.sections c := by
  rw [portions, List.map_map]
  exact List.map_id _

theorem symbols_portions (style : TableStyle) (order : Order) (c : Catalogue) :
    (style.portions order c).flatMap Portion.symbols =
      ((order.sections c).flatMap (order.symbols c)).filter style.shows := by
  rw [portions, List.flatMap_map, List.filter_flatMap]

/-- **Another order only rearranges**: the same sections, each with the same symbols. -/
theorem forall₂_rearranged (style : TableStyle) (order order' : Order) (c : Catalogue) :
    ∃ portions, portions.Perm (style.portions order' c) ∧
      List.Forall₂ Portion.Rearranged (style.portions order c) portions := by
  -- the portions of the other order, in this order of the sections
  refine ⟨(order.sections c).map fun o => ⟨o, (order'.symbols c o).filter style.shows⟩, ?_, ?_⟩
  · have hsections : (order.sections c).Perm (order'.sections c) :=
      (Catalogue.sections_perm order c).trans (Catalogue.sections_perm order' c).symm
    exact hsections.map _
  · rw [portions, List.forall₂_map_left_iff, List.forall₂_map_right_iff, List.forall₂_same]
    intro o _
    have hsymbols : (order.symbols c o).Perm (order'.symbols c o) :=
      (List.mergeSort_perm _ _).trans (List.mergeSort_perm _ _).symm
    exact ⟨rfl, hsymbols.filter style.shows⟩

end TableStyle

namespace Catalogue

open TableStyle

variable {c : Catalogue}

/-- Going through the sections and their symbols in any order, all symbols are met once. -/
theorem WellFormed.perm_listed (h : c.WellFormed) (order : Order) :
    ((order.sections c).flatMap (order.symbols c)).Perm c.symbols.values := by
  have hsymbols : ((order.sections c).flatMap (order.symbols c)).Perm
      ((order.sections c).flatMap c.symbolsOf) :=
    List.Perm.flatMap_left _ fun _ _ => List.mergeSort_perm _ _
  exact hsymbols.trans (h.perm_symbolsOf (sections_perm order c))

theorem WellFormed.owner_of_mem_portions (h : c.WellFormed) {style : TableStyle} {order : Order}
    {p : Portion} (hp : p ∈ style.portions order c) {s : Symbol} (hs : s ∈ p.symbols) :
    s.owner = p.owner.name := by
  obtain ⟨o, ho, rfl⟩ := List.mem_map.1 hp
  have hmem : s ∈ order.symbols c o := List.mem_of_mem_filter hs
  exact h.owner_of_mem_symbolsOf ((mem_sections order).1 ho) (List.mem_mergeSort.1 hmem)

/-- In which order a catalogue is listed, and what its tables show. -/
structure TableAccount (c : Catalogue) : Prop where
  arrangement : ∀ order : Order, order.Arrangement c
  /-- A table is printed portion by portion, the heading of each section before the lines of its
  symbols. -/
  text_eq : ∀ (style : TableStyle) (order : Order), style.render order c =
    style.openingText ++
      ((style.portions order c).flatMap fun p =>
        style.headingText p.owner ++ p.symbols.flatMap style.symbolText) ++
      "\\end\x7blongtable\x7d\n"
  /-- The minimal table has no line for symbols with arguments; otherwise every symbol is shown. -/
  shows_iff : ∀ (style : TableStyle) (s : Symbol),
    style.shows s = true ↔ (style = .minimal → s.nargs = 0)
  /-- Each section is there once, and so is each symbol that is shown, under its own section. -/
  owners_perm : ∀ (style : TableStyle) (order : Order),
    ((style.portions order c).map Portion.owner).Perm c.sections.values
  symbols_perm : ∀ (style : TableStyle) (order : Order),
    ((style.portions order c).flatMap Portion.symbols).Perm (c.symbols.values.filter style.shows)
  owner_eq : ∀ (style : TableStyle) (order : Order), ∀ p ∈ style.portions order c,
    ∀ s ∈ p.symbols, s.owner = p.owner.name
  /-- Any two orders give the same sections with the same symbols, but for the order of the
  sections and of the symbols of each. -/
  rearranged : ∀ (style : TableStyle) (order order' : Order),
    ∃ portions, portions.Perm (style.portions order' c) ∧
      List.Forall₂ Portion.Rearranged (style.portions order c) portions

/-- **The order of what tables show, after any run**, and that it is only the order. -/
theorem tables_run (knownTags : List Text) (operations : List Operation) :
    TableAccount ((new knownTags).run operations) where
  arrangement := arrangement_run knownTags operations
  text_eq style order := render_eq style order _
  shows_iff _ _ := TableStyle.shows_iff
  owners_perm style order := by
    rw [owners_portions]
    exact sections_perm order _
  symbols_perm style order := by
    rw [symbols_portions]
    have h := (wellFormed_new knownTags).run operations
    exact (h.perm_listed order).filter style.shows
  owner_eq style order p hp s hs :=
    ((wellFormed_new knownTags).run operations).owner_of_mem_portions hp hs
  rearranged style order order' := forall₂_rearranged style order order' _

end Catalogue

end TexSymbols
