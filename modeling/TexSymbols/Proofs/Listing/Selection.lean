import Mathlib.Data.List.DropRight
import TexSymbols.Listing.Selection
import TexSymbols.Proofs.Catalogue.Inheritance
import TexSymbols.Proofs.Results
import TexSymbols.Proofs.Symbol.Regenerate
import TexSymbols.Proofs.Tex.Printed
import TexSymbols.Proofs.Text.Distinct

/-!
# What a selection writes

* `picked` — what filters pick from a list, each from what the earlier ones left; `mem_picked`,
  `pairwise_picked` — which elements, and in which order; `distinct_flatMap_filter` — they are all
  that the filters pick from the whole list, each once.
* `fragments`, `Matches`, `Catalogue.Unknown` — the fragments of a list, those that match a section,
  and those that match none.
* `WellFormed.sectionsMatching_eq` — the first unknown fragment, or else the sections that match.
* `Selection.text` — the definitions, character by character; `Selection.render_eq` — why nothing is
  written, or else these definitions.
* `Selection.Account`, `Catalogue.selectionAccount_run` — when a selection fails, and which
  definitions it writes otherwise, in which order and in which colours; after every run.
-/

namespace TexSymbols

/-! ## What filters pick -/

section Picked

variable {α β : Type} {p : β → α → Bool} {filters : List β} {xs : List α}

/-- What filters pick from a list, each from what the earlier ones left. -/
def picked (p : β → α → Bool) : List β → List α → List α
  | [], _ => []
  | f :: filters, xs => xs.filter (p f) ++ picked p filters (xs.filter (!p f ·))

theorem mem_picked {x : α} : x ∈ picked p filters xs ↔ x ∈ xs ∧ ∃ f ∈ filters, p f x = true := by
  induction filters generalizing xs with
  | nil => simp [picked]
  | cons f filters ih =>
    rw [picked, List.mem_append, ih, List.mem_filter, List.mem_filter]
    cases hf : p f x <;> simp [hf]

/-- The elements come in the order of the first filters that pick them, and those of one filter in
the order of the list. -/
theorem pairwise_picked {R : α → α → Prop} (h : xs.Pairwise R) (filters : List β) :
    (picked p filters xs).Pairwise fun a b =>
      filters.findIdx (p · a) < filters.findIdx (p · b) ∨
        filters.findIdx (p · a) = filters.findIdx (p · b) ∧ R a b := by
  induction filters generalizing xs with
  | nil => exact .nil
  | cons f filters ih =>
    have hfirst : ∀ x ∈ xs.filter (p f), (f :: filters).findIdx (p · x) = 0 := by
      intro x hx
      rw [List.findIdx_cons, (List.mem_filter.1 hx).2, cond_true]
    have hlater : ∀ x ∈ picked p filters (xs.filter (!p f ·)),
        (f :: filters).findIdx (p · x) = filters.findIdx (p · x) + 1 := by
      intro x hx
      have hpassed : p f x = false := by
        simpa using (List.mem_filter.1 (mem_picked.1 hx).1).2
      rw [List.findIdx_cons, hpassed, cond_false]
    rw [picked, List.pairwise_append]
    refine ⟨?_, ?_, ?_⟩
    · refine (h.filter _).imp_of_mem fun {a b} ha hb hab => .inr ⟨?_, hab⟩
      rw [hfirst a ha, hfirst b hb]
    · refine (ih (h.filter _)).imp_of_mem fun {a b} ha hb hab => ?_
      rw [hlater a ha, hlater b hb]
      exact hab.imp (Nat.add_lt_add_right · 1) (And.imp_left (congrArg (· + 1)))
    · intro a ha b hb
      rw [hfirst a ha, hlater b hb]
      exact .inl (Nat.succ_pos _)

theorem map_picked {γ : Type} (g : α → γ) (p : β → γ → Bool) (filters : List β) (xs : List α) :
    picked p filters (xs.map g) = (picked (fun f x => p f (g x)) filters xs).map g := by
  induction filters generalizing xs with
  | nil => rfl
  | cons f filters ih =>
    rw [picked, picked, List.filter_map, List.filter_map, ih, List.map_append]
    rfl

/-- **What filters pick from a whole list is picked once**, if nothing is repeated in the list. -/
theorem distinct_flatMap_filter {p : β → Text → Bool} {ts : List Text} (h : ts.Nodup)
    (filters : List β) :
    Text.distinct (filters.flatMap fun f => ts.filter (p f)) = picked p filters ts := by
  rw [Text.distinct_eq_eraseDups]
  induction filters generalizing ts with
  | nil => rfl
  | cons f filters ih =>
    have hfirst : (ts.filter (p f)).eraseDups = ts.filter (p f) := by
      rw [← Text.distinct_eq_eraseDups, Text.distinct_eq_self (h.filter _)]
    -- what the first filter picks is taken from what all others pick
    have hlater : (filters.flatMap fun g => ts.filter (p g)).removeAll (ts.filter (p f)) =
        filters.flatMap fun g => (ts.filter (!p f ·)).filter (p g) := by
      rw [List.removeAll, List.filter_flatMap]
      refine List.flatMap_congr fun g _ => ?_
      rw [List.filter_filter, List.filter_filter]
      refine List.filter_congr fun t ht => ?_
      rw [Bool.and_comm]
      simp [ht]
    rw [List.flatMap_cons, List.eraseDups_append, hfirst, hlater, ih (h.filter _), picked]

end Picked

/-! ## Fragments -/

theorem Text.occursIn_iff {piece t : Text} : Text.occursIn piece t = true ↔ piece <:+: t := by
  induction t with
  | nil => rw [Text.occursIn, List.isEmpty_iff, List.infix_nil]
  | cons c t ih =>
    rw [Text.occursIn, Bool.or_eq_true, List.isPrefixOf_iff_prefix, ih, List.infix_cons_iff]

/-- The fragments of a list: what stands between its commas, without the blanks at both ends, where
anything is left. -/
def fragments (which : Text) : List Text :=
  ((List.splitOn ',' which).map fun t => (t.dropWhile isBlank).rdropWhile isBlank).filter (· ≠ [])

theorem fragmentsOf_eq (which : Text) : fragmentsOf which = fragments which := by
  rw [fragmentsOf, Text.splitOn_eq]
  rfl

/-- A fragment matches a section: `all` matches every one, any other one those whose names contain
it. -/
def Matches (fragment : Text) (o : Section) : Prop :=
  fragment = ("all" : Text) ∨ fragment <:+: o.name

theorem fragmentMatches_iff {fragment : Text} {o : Section} :
    fragmentMatches fragment o.name = true ↔ Matches fragment o := by
  rw [fragmentMatches, Bool.or_eq_true, beq_iff_eq, Text.occursIn_iff, Matches, everySection]

instance (fragment : Text) (o : Section) : Decidable (Matches fragment o) :=
  decidable_of_iff _ fragmentMatches_iff

theorem fragmentMatches_eq (fragment : Text) (o : Section) :
    fragmentMatches fragment o.name = decide (Matches fragment o) := by
  rw [Bool.eq_iff_iff, decide_eq_true_iff, fragmentMatches_iff]

namespace Catalogue

variable {c : Catalogue} {which fragment : Text} {o : Section}

/-- A fragment that matches no section of the catalogue: `all` if there are no sections, any other
one if no name contains it. -/
def Unknown (c : Catalogue) (fragment : Text) : Prop :=
  fragment = ("all" : Text) ∧ c.sections.values = [] ∨
    fragment ≠ ("all" : Text) ∧ ∀ o ∈ c.sections.values, ¬ fragment <:+: o.name

theorem unknown_iff : c.Unknown fragment ↔ ∀ o ∈ c.sections.values, ¬ Matches fragment o := by
  unfold Unknown Matches
  generalize ("all" : Text) = all
  by_cases hall : fragment = all
  · simp [hall, List.eq_nil_iff_forall_not_mem]
  · simp [hall]

instance (c : Catalogue) (fragment : Text) : Decidable (c.Unknown fragment) :=
  decidable_of_iff _ unknown_iff.symm

/-- Why a fragment is refused. -/
def refusal? (c : Catalogue) (fragment : Text) : Option ListingError :=
  if c.Unknown fragment then some (.unknownSection fragment c.sections.keys) else none

theorem refusal?_eq_some_iff {e : ListingError} : c.refusal? fragment = some e ↔
    c.Unknown fragment ∧ e = .unknownSection fragment c.sections.keys := by
  rw [refusal?]
  split
  · rename_i hunknown
    simp [hunknown, eq_comm]
  · rename_i hknown
    simp [hknown]

theorem refusal?_eq_none_iff : c.refusal? fragment = none ↔ ¬ c.Unknown fragment := by
  rw [refusal?]
  split <;> simp_all

/-- The sections that some of the fragments match. -/
def chosen (c : Catalogue) (which : Text) : List Section :=
  picked (fun fragment o => Matches fragment o) (fragments which) c.sections.values

/-- The place of the first fragment that matches a section. -/
def firstMatch (which : Text) (o : Section) : Nat :=
  (fragments which).findIdx (Matches · o)

theorem mem_chosen :
    o ∈ c.chosen which ↔ o ∈ c.sections.values ∧ ∃ f ∈ fragments which, Matches f o := by
  simp [chosen, mem_picked]

theorem WellFormed.filter_keys (h : c.WellFormed) (fragment : Text) :
    c.sections.keys.filter (fragmentMatches fragment) =
      (c.sections.values.filter (Matches fragment ·)).map Section.name := by
  rw [← h.names_eq_keys, List.filter_map]
  exact congrArg _ (List.filter_congr fun o _ => fragmentMatches_eq fragment o)

theorem WellFormed.find?_name (h : c.WellFormed) (ho : o ∈ c.sections.values) :
    c.sections.find? o.name = some o := by
  obtain ⟨name, hname⟩ := OrderedMap.mem_values.1 ho
  have heq : o.name = name := h.section_named _ hname
  rw [heq]
  exact OrderedMap.find?_eq_some_iff.2 hname

theorem WellFormed.namesMatching_eq (h : c.WellFormed) (fragment : Text) :
    c.namesMatching fragment =
      failsOr (c.refusal? fragment) (c.sections.keys.filter (fragmentMatches fragment)) := by
  have hunknown : c.Unknown fragment ↔ c.sections.keys.filter (fragmentMatches fragment) = [] := by
    rw [unknown_iff, h.filter_keys, List.map_eq_nil_iff, List.filter_eq_nil_iff]
    simp
  rw [namesMatching, refusal?]
  split
  · rename_i hnil
    rw [if_pos (hunknown.2 hnil)]
    rfl
  · rename_i hnil
    rw [if_neg (mt hunknown.1 hnil)]
    rfl

/-- **The first unknown fragment is refused; otherwise all sections that match are there**, each
once. -/
theorem WellFormed.sectionsMatching_eq (h : c.WellFormed) (which : Text) :
    c.sectionsMatching which =
      failsOr ((fragments which).findSome? c.refusal?) (c.chosen which) := by
  have hnames : (fragments which).mapM c.namesMatching = failsOr _ _ :=
    mapM_eq_failsOr fun fragment _ => h.namesMatching_eq fragment
  have hchosen : Text.distinct
      ((fragments which).flatMap fun fragment =>
        c.sections.keys.filter (fragmentMatches fragment)) =
      (c.chosen which).map Section.name := by
    rw [distinct_flatMap_filter c.sections.nodup_keys, ← h.names_eq_keys, map_picked]
    simp only [fragmentMatches_eq, chosen]
  rw [sectionsMatching, fragmentsOf_eq, hnames, bind_failsOr, ← List.flatMap_def, hchosen,
    List.filterMap_map]
  refine congrArg _ ((List.filterMap_congr fun o ho => ?_).trans List.filterMap_some)
  exact h.find?_name (mem_chosen.1 ho).1

/-- The sections come in the order of the first fragments that match them, and those of one fragment
in the order of definition. -/
theorem WellFormed.pairwise_chosen (h : c.WellFormed) (which : Text) :
    (c.chosen which).Pairwise fun a b =>
      firstMatch which a < firstMatch which b ∨
        firstMatch which a = firstMatch which b ∧ a.order < b.order :=
  pairwise_picked (List.pairwise_map.1 h.sections_increasing) _

theorem WellFormed.names_chosen_nodup (h : c.WellFormed) (which : Text) :
    ((c.chosen which).map Section.name).Nodup := by
  have hnodup : (c.chosen which).Nodup :=
    (h.pairwise_chosen which).imp fun {a b} hab heq => by
      subst heq
      exact hab.elim (Nat.lt_irrefl _) fun hab => Nat.lt_irrefl _ hab.2
  refine hnodup.map_on fun a ha b hb heq => ?_
  exact List.inj_on_of_nodup_map h.names_nodup (mem_chosen.1 ha).1 (mem_chosen.1 hb).1 heq

theorem WellFormed.mem_symbolsOf (h : c.WellFormed) (ho : o ∈ c.sections.values) {s : Symbol} :
    s ∈ c.symbolsOf o ↔ s ∈ c.symbols.values ∧ s.owner = o.name := by
  rw [h.symbolsOf_eq ho, ownedBy, List.mem_filter, decide_eq_true_iff]

theorem WellFormed.symbolsOf_increasing (h : c.WellFormed) (ho : o ∈ c.sections.values) :
    ((c.symbolsOf o).map Symbol.order).Pairwise (· < ·) := by
  rw [h.symbolsOf_eq ho]
  exact h.symbols_increasing.sublist (List.filter_sublist.map _)

/-- No symbol is met twice in the sections. -/
theorem WellFormed.symbols_chosen_nodup (h : c.WellFormed) (which : Text) :
    ((c.chosen which).flatMap c.symbolsOf).Nodup := by
  have hsection : ∀ o ∈ c.chosen which, o ∈ c.sections.values := fun o ho => (mem_chosen.1 ho).1
  rw [List.nodup_flatMap]
  refine ⟨fun o ho => ?_, ?_⟩
  · have hincreasing := List.pairwise_map.1 (h.symbolsOf_increasing (hsection o ho))
    refine hincreasing.imp ?_
    rintro s t hlt rfl
    exact Nat.lt_irrefl _ hlt
  · refine (List.pairwise_map.1 (h.names_chosen_nodup which)).imp_of_mem fun {a b} ha hb hab => ?_
    -- a symbol of both sections would have the names of both as its owner
    show List.Disjoint (c.symbolsOf a) (c.symbolsOf b)
    rw [List.disjoint_left]
    intro s hsa hsb
    have howner := ((h.mem_symbolsOf (hsection a ha)).1 hsa).2
    exact hab (howner.symm.trans ((h.mem_symbolsOf (hsection b hb)).1 hsb).2)

theorem WellFormed.commands_chosen_nodup (h : c.WellFormed) (which : Text) :
    (((c.chosen which).flatMap c.symbolsOf).map fun s => s.command).Nodup := by
  have hmem : ∀ s ∈ (c.chosen which).flatMap c.symbolsOf, s ∈ c.symbols.values := by
    intro s hs
    obtain ⟨o, ho, hs⟩ := List.mem_flatMap.1 hs
    exact ((h.mem_symbolsOf (mem_chosen.1 ho).1).1 hs).1
  refine (h.symbols_chosen_nodup which).map_on fun s hs t ht heq => ?_
  exact List.inj_on_of_nodup_map h.commands_nodup (hmem s hs) (hmem t ht) heq

/-- If no fragment is unknown, sections are chosen exactly if there are fragments. -/
theorem chosen_eq_nil_iff (h : (fragments which).findSome? c.refusal? = none) :
    c.chosen which = [] ↔ fragments which = [] := by
  constructor
  · intro hnil
    rw [List.eq_nil_iff_forall_not_mem]
    intro fragment hfragment
    have hknown := List.findSome?_eq_none_iff.1 h fragment hfragment
    rw [refusal?_eq_none_iff, unknown_iff] at hknown
    push Not at hknown
    obtain ⟨o, ho, hmatch⟩ := hknown
    exact List.eq_nil_iff_forall_not_mem.1 hnil o (mem_chosen.2 ⟨ho, fragment, hfragment, hmatch⟩)
  · intro hnone
    rw [chosen, hnone, picked]

end Catalogue

/-! ## What is written -/

namespace Selection

variable {c : Catalogue} {sel : Selection} {o : Section}

/-- A body in the colour with the given red, green and blue parts. -/
def tinted (parts body : Text) : Text :=
  "\x7b\\color[rgb]\x7b" ++ parts ++ "\x7d " ++ body ++ "\x7d"

/-- The body of a symbol by the fragments that match its section: red prevails over blue, blue over
green. -/
def bodyText (sel : Selection) (o : Section) (body : Text) : Text :=
  if ∃ f ∈ fragments sel.red, Matches f o then tinted "0.5,0,0" body
  else if ∃ f ∈ fragments sel.blue, Matches f o then tinted "0,0,0.5" body
  else if ∃ f ∈ fragments sel.green, Matches f o then tinted "0,0.3,0" body
  else body

/-- The number of arguments in brackets, unless there are none. -/
def arityText (s : Symbol) : Text :=
  if s.nargs = 0 then [] else "[" ++ Nat.toDigits 10 s.nargs ++ "]"

/-- The command of a symbol, the number of its arguments, and a body. -/
def parametersText (s : Symbol) (body : Text) : Text :=
  "\x7b" ++ s.command ++ "\x7d" ++ arityText s ++ "\x7b" ++ body ++ "\x7d"

/-- The definition of a symbol with the given body, and behind it the description as a comment. -/
def definitionText (s : Symbol) (body : Text) : Text :=
  "\\ifdefined" ++ s.command ++ "%\n" ++
    "  \\renewcommand" ++ parametersText s body ++ "%\n" ++
    "\\else%\n" ++
    "  \\newcommand" ++ parametersText s body ++ "%\n" ++
    "\\fi\n" ++ s.trailer ++ "\n"

/-! ### The written text is the printed one -/

theorem parameters_eq (s : Symbol) (body : Text) :
    Symbol.parameters s.command s.nargs body = parametersText s body := by
  rw [Symbol.parameters, Decimal.digits_eq_toDigits]
  rfl

theorem guarded_trailer_eq (s : Symbol) (body : Text) :
    Symbol.guarded s.command s.nargs body ++ s.trailer ++ "\n" = definitionText s body := by
  have hfirst : ("%\n  \\renewcommand" : Text) = "%\n" ++ "  \\renewcommand" := rfl
  have hsecond : ("%\n\\else%\n  \\newcommand" : Text) =
      "%\n" ++ "\\else%\n" ++ "  \\newcommand" := rfl
  have hlast : ("%\n\\fi\n" : Text) = "%\n" ++ "\\fi\n" := rfl
  unfold definitionText Symbol.guarded
  rw [parameters_eq, hfirst, hsecond, hlast]
  simp only [List.append_assoc]

theorem regenerate_eq {s : Symbol} (hs : s.synonyms = []) (f : Text → Text) :
    s.regenerate f ++ ("\n" : Text) = definitionText s (f s.body) := by
  have hnames : s.names = [s.command] := congrArg (s.command :: ·) hs
  rw [Symbol.regenerate_eq, hnames, List.map_singleton, Text.join, guarded_trailer_eq]

theorem coloured_eq_tinted {rgb : Rgb} {parts : Text} (h : Tex.printedParts rgb = parts)
    (body : Text) : Tex.coloured rgb (" " ++ body) = tinted parts body := by
  have hclose : ("\x7d " : Text) = "\x7d" ++ " " := rfl
  unfold tinted
  rw [Tex.coloured_eq h, hclose]
  simp only [List.append_assoc]

/-- A symbol of a section is written in the colour of the section. -/
theorem symbolText_eq {s : Symbol} (hs : s.synonyms = []) (ho : o ∈ c.sections.values) :
    symbolText (Palette.colour? ⟨c.chosen sel.red, c.chosen sel.blue, c.chosen sel.green⟩ o) s =
      definitionText s (sel.bodyText o s.body) := by
  have htinted : ∀ {rgb parts}, Tex.printedParts rgb = parts →
      symbolText (some rgb) s = definitionText s (tinted parts s.body) := by
    intro rgb parts h
    rw [← coloured_eq_tinted h]
    exact regenerate_eq hs _
  simp only [Palette.colour?, Catalogue.mem_chosen, ho, true_and, bodyText]
  split
  · exact htinted Tex.printedParts_darkRed
  · split
    · exact htinted Tex.printedParts_darkBlue
    · split
      · exact htinted Tex.printedParts_darkGreen
      · exact regenerate_eq hs id

/-- Why nothing is written: an unknown fragment of what is to be included, or no fragment there, or
an unknown fragment of a colour. -/
def refusal? (sel : Selection) (c : Catalogue) : Option ListingError :=
  ((fragments sel.included).findSome? c.refusal?).or <|
    (if fragments sel.included = [] then some (.nothingSelected sel.included) else none).or <|
      ((fragments sel.red).findSome? c.refusal?).or <|
        ((fragments sel.blue).findSome? c.refusal?).or <|
          (fragments sel.green).findSome? c.refusal?

/-- The definitions of the symbols of the sections that are included, section by section. -/
def text (sel : Selection) (c : Catalogue) : Text :=
  (c.chosen sel.included).flatMap fun o =>
    (c.symbols.values.filter (·.owner = o.name)).flatMap fun s =>
      definitionText s (sel.bodyText o s.body)

/-- **Either there is a reason to write nothing, or all definitions are written.** -/
theorem render_eq (h : c.WellFormed) (hsynonyms : ∀ s ∈ c.symbols.values, s.synonyms = [])
    (sel : Selection) : sel.render c = failsOr (sel.refusal? c) (sel.text c) := by
  have htext : ((c.chosen sel.included).flatMap fun o => (c.symbolsOf o).flatMap (symbolText
      (Palette.colour? ⟨c.chosen sel.red, c.chosen sel.blue, c.chosen sel.green⟩ o))) =
        sel.text c := by
    refine List.flatMap_congr fun o ho => ?_
    have hsection := (Catalogue.mem_chosen.1 ho).1
    rw [h.symbolsOf_eq hsection]
    exact List.flatMap_congr fun s hs =>
      symbolText_eq (hsynonyms s (List.mem_of_mem_filter hs)) hsection
  simp only [render, h.sectionsMatching_eq, refusal?]
  cases hincluded : (fragments sel.included).findSome? c.refusal? with
  | some e => rfl
  | none =>
    have hnil := Catalogue.chosen_eq_nil_iff hincluded
    by_cases hnone : fragments sel.included = []
    · rw [if_pos hnone]
      show (if c.chosen sel.included = [] then _ else _) = _
      rw [if_pos (hnil.2 hnone)]
      rfl
    · rw [if_neg hnone, ← htext]
      show (if c.chosen sel.included = [] then _ else _) = _
      rw [if_neg (mt hnil.1 hnone)]
      cases (fragments sel.red).findSome? c.refusal? <;>
        cases (fragments sel.blue).findSome? c.refusal? <;>
          cases (fragments sel.green).findSome? c.refusal? <;> rfl

/-- The lists of fragments of a selection. -/
def lists (sel : Selection) : List Text := [sel.included, sel.red, sel.blue, sel.green]

theorem refusal?_eq_none_iff : sel.refusal? c = none ↔
    fragments sel.included ≠ [] ∧
      ∀ which ∈ sel.lists, ∀ f ∈ fragments which, ¬ c.Unknown f := by
  simp only [refusal?, Option.or_eq_none_iff, List.findSome?_eq_none_iff,
    Catalogue.refusal?_eq_none_iff, lists, List.forall_mem_cons, List.not_mem_nil, ite_eq_right_iff]
  tauto

/-- What is refused is an empty list of fragments, or an unknown fragment. -/
theorem refusal?_eq_some {e : ListingError} (h : sel.refusal? c = some e) :
    fragments sel.included = [] ∧ e = .nothingSelected sel.included ∨
      ∃ which ∈ sel.lists, ∃ f ∈ fragments which,
        c.Unknown f ∧ e = .unknownSection f c.sections.keys := by
  have hunknown : ∀ which ∈ sel.lists, (fragments which).findSome? c.refusal? = some e →
      ∃ which ∈ sel.lists, ∃ f ∈ fragments which,
        c.Unknown f ∧ e = .unknownSection f c.sections.keys := by
    intro which hwhich hsome
    obtain ⟨f, hf, hrefused⟩ := List.exists_of_findSome?_eq_some hsome
    exact ⟨which, hwhich, f, hf, Catalogue.refusal?_eq_some_iff.1 hrefused⟩
  simp only [refusal?, Option.or_eq_some_iff] at h
  rcases h with h | ⟨-, h | ⟨-, h | ⟨-, h | ⟨-, h⟩⟩⟩⟩
  · exact .inr (hunknown sel.included (by simp [lists]) h)
  · rw [Option.ite_none_right_eq_some] at h
    exact .inl ⟨h.1, (Option.some.inj h.2).symm⟩
  · exact .inr (hunknown sel.red (by simp [lists]) h)
  · exact .inr (hunknown sel.blue (by simp [lists]) h)
  · exact .inr (hunknown sel.green (by simp [lists]) h)

/-- What a selection writes, and when. -/
structure Account (sel : Selection) (c : Catalogue) : Prop where
  /-- Nothing is written exactly if there is no fragment to include, or some fragment is unknown. -/
  fails_iff : (∃ e, sel.render c = .error e) ↔
    fragments sel.included = [] ∨ ∃ which ∈ sel.lists, ∃ f ∈ fragments which, c.Unknown f
  /-- The error says which of them it was. -/
  error_names : ∀ e, sel.render c = .error e →
    fragments sel.included = [] ∧ e = .nothingSelected sel.included ∨
      ∃ which ∈ sel.lists, ∃ f ∈ fragments which,
        c.Unknown f ∧ e = .unknownSection f c.sections.keys
  /-- Otherwise the text is one definition for each symbol of the sections that are included, in the
  colour of its section. -/
  text_eq : fragments sel.included ≠ [] →
    (∀ which ∈ sel.lists, ∀ f ∈ fragments which, ¬ c.Unknown f) →
      sel.render c = .ok ((c.chosen sel.included).flatMap fun o =>
        (c.symbols.values.filter (·.owner = o.name)).flatMap fun s =>
          definitionText s (sel.bodyText o s.body))
  /-- Included are the sections that a fragment matches, each once, in the order of the first
  fragments that match them and then in that of the catalogue. -/
  mem_chosen_iff : ∀ o, o ∈ c.chosen sel.included ↔
    o ∈ c.sections.values ∧ ∃ f ∈ fragments sel.included, Matches f o
  chosen_inOrder : (c.chosen sel.included).Pairwise fun a b =>
    Catalogue.firstMatch sel.included a < Catalogue.firstMatch sel.included b ∨
      Catalogue.firstMatch sel.included a = Catalogue.firstMatch sel.included b ∧ a.order < b.order
  names_nodup : ((c.chosen sel.included).map Section.name).Nodup
  /-- The symbols of a section are those that belong to it, in the order in which they came. -/
  symbolsOf_eq : ∀ o ∈ c.chosen sel.included,
    c.symbolsOf o = c.symbols.values.filter (·.owner = o.name)
  increasing : ∀ o ∈ c.chosen sel.included, ((c.symbolsOf o).map Symbol.order).Pairwise (· < ·)
  /-- No command is defined twice. -/
  commands_nodup : (((c.chosen sel.included).flatMap c.symbolsOf).map fun s => s.command).Nodup

end Selection

namespace Catalogue

variable {c : Catalogue}

theorem WellFormed.selectionAccount (h : c.WellFormed)
    (hsynonyms : ∀ s ∈ c.symbols.values, s.synonyms = []) (sel : Selection) : sel.Account c where
  fails_iff := by
    simp only [Selection.render_eq h hsynonyms, failsOr_eq_error_iff, ← Option.isSome_iff_exists]
    rw [Option.isSome_iff_ne_none, ne_eq, Selection.refusal?_eq_none_iff]
    push Not
    tauto
  error_names e he := by
    rw [Selection.render_eq h hsynonyms, failsOr_eq_error_iff] at he
    exact Selection.refusal?_eq_some he
  text_eq hsome hknown := by
    rw [Selection.render_eq h hsynonyms, failsOr_eq_ok_iff]
    exact ⟨Selection.refusal?_eq_none_iff.2 ⟨hsome, hknown⟩, rfl⟩
  mem_chosen_iff o := mem_chosen
  chosen_inOrder := h.pairwise_chosen sel.included
  names_nodup := h.names_chosen_nodup sel.included
  symbolsOf_eq o ho := h.symbolsOf_eq (mem_chosen.1 ho).1
  increasing o ho := h.symbolsOf_increasing (mem_chosen.1 ho).1
  commands_nodup := h.commands_chosen_nodup sel.included

/-- **What any selection writes after any run.** -/
theorem selectionAccount_run (knownTags : List Text) (operations : List Operation)
    (sel : Selection) : sel.Account ((new knownTags).run operations) := by
  refine ((wellFormed_new knownTags).run operations).selectionAccount (fun s hs => ?_) sel
  obtain ⟨before, g, after, -, -, -, hmade, -⟩ :=
    (historyInvariant_recorded.run knownTags operations).registered s hs
  exact hmade.synonyms_eq

end Catalogue

end TexSymbols
