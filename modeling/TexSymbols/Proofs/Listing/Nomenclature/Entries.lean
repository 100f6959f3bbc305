import TexSymbols.Proofs.Catalogue.OneLine
import TexSymbols.Proofs.Listing.Nomenclature.Symbols
import TexSymbols.Proofs.Token.Content

/-!
# The entries of the nomenclature

* `Nomenclature.entryLines` — the lines that are written for a symbol: one that says what becomes of
  it, and above it a note if its entry says nothing.
* `Nomenclature.symbolEntry_eq` — a symbol is refused, or these lines are written.
* `Nomenclature.render_entries` — the first symbol in use that is refused, or else the lines of all.
* `Nomenclature.isLine_of_mem_entryLines` — each is one line.
* `Nomenclature.EntriesAccount` — which lines the entries consist of; `entriesAccount_run` — after
  every run, with any usage map.
-/

namespace TexSymbols

namespace Symbol

/-! ## The lines of a symbol -/

/-- The explanation without blanks around it, ended with a period. -/
def sentence (s : Symbol) : Text :=
  let text := Text.trim s.explanation
  if text = [] ∨ text.getLast? = some '.' then text else text ++ "."

/-- The cross-reference, if there is one. -/
def crossReference (s : Symbol) : Text :=
  if s.target = [] then [] else " \\nomencref\x7b" ++ s.target ++ "\x7d"

/-- The sentence and behind it the cross-reference. -/
def remark (s : Symbol) : Text := s.sentence ++ s.crossReference

end Symbol

namespace Nomenclature

variable {usages : Option UsageMap} {c : Catalogue} {s : Symbol}

/-- The `\nomenclature` line of a symbol with the given text. -/
def entryLineWith (s : Symbol) (text : Text) : Text :=
  "\\nomenclature" ++ sortOptions s.owner s ++ "\x7b\\nomencLabel\x7b" ++ s.bareName ++
    "\x7d\x7b" ++ s.label ++ "\x7d\x7d\x7b\\nomencText\x7b" ++ s.bareName ++
    "\x7d\x7b" ++ text ++ "\x7d\x7b" ++ s.target ++ "\x7d\x7d"

/-- What stands for a text that is missing. -/
def placeholder (s : Symbol) : Text := "\\nomencMissExplanation\x7b" ++ s.bareName ++ "\x7d"

/-- The text of an entry. -/
def entryText (s : Symbol) : Text := if s.remark = [] then placeholder s else s.remark

/-- The `\nomenclature` line of a symbol. -/
def entryLine (s : Symbol) : Text := entryLineWith s (entryText s)

/-- A comment. -/
def commentLine (message : Text) : Text := "% " ++ message

/-- The note that the explanation of a symbol is missing. -/
def missingNote (s : Symbol) : Text := commentLine ("No text for " ++ s.command)

/-- The line that says what becomes of a symbol: why it is skipped, or its entry. -/
def mainLine (s : Symbol) : Text :=
  if s.hasAttribute Tag.excluded then
    commentLine ("Skipping symbol " ++ s.command ++ " because of " ++ Tag.excluded)
  else if s.nomenclature = none ∧ s.nargs ≠ 0 then
    commentLine ("Skipping symbol " ++ s.command ++ " because it has args.")
  else entryLine s

/-- The lines above it: a note, if there is an entry and it says nothing. -/
def notesAbove (s : Symbol) : List Text :=
  if isListed s = true ∧ s.remark = [] then [missingNote s] else []

/-- The lines of a symbol. -/
def entryLines (s : Symbol) : List Text := notesAbove s ++ [mainLine s]

theorem mainLine_of_isListed (h : isListed s = true) : mainLine s = entryLine s := by
  obtain ⟨hexcluded, hshown⟩ := isListed_iff.1 h
  rw [mainLine, hexcluded, if_neg Bool.false_ne_true, if_neg hshown]

theorem trim_period (s : Symbol) :
    (if lacksPeriod (Text.trim s.explanation) then Text.trim s.explanation ++ "."
      else Text.trim s.explanation) = s.sentence := by
  unfold Symbol.sentence lacksPeriod
  by_cases hnil : Text.trim s.explanation = [] <;>
    by_cases hlast : (Text.trim s.explanation).getLast? = some '.' <;> simp [hnil, hlast]

theorem line_end (t : Text) : t ++ ("\x7d\x7d\n" : Text) = unlines [t ++ "\x7d\x7d"] := by
  have hend : ("\x7d\x7d\n" : Text) = "\x7d\x7d" ++ ['\n'] := by decide
  rw [hend, ← List.append_assoc]
  rfl

theorem entry_eq (s : Symbol) : (entry s.owner s s.label s.explanation).2 =
    failsOr s.refusal?
      (unlines ((if s.remark = [] then [missingNote s] else []) ++ [entryLine s])) := by
  have hremark : s.sentence ++
      unlessEmpty (fun t => " " ++ Tex.applied "\\nomencref" t) s.target = s.remark := rfl
  unfold entry
  simp only [trim_period, Symbol.reference_eq]
  cases s.refusal? with
  | some e => rfl
  | none =>
    by_cases hnil : s.remark = []
    · simp only [failsOr, hremark, if_pos hnil]
      have hline : entryLine s = entryLineWith s _ := congrArg (entryLineWith s) (if_pos hnil)
      rw [hline, unlines_append]
      exact congrArg (fun line => Except.ok (note _ ++ line)) (line_end _)
    · simp only [failsOr, hremark, if_neg hnil]
      have hline : entryLine s = entryLineWith s _ := congrArg (entryLineWith s) (if_neg hnil)
      rw [hline]
      exact congrArg Except.ok (line_end _)

/-- Why a symbol is refused that has an entry. -/
def entryRefusal? (s : Symbol) : Option ListingError := if isListed s then s.refusal? else none

/-- **What is written for a symbol in its section.** -/
theorem symbolEntry_eq (s : Symbol) :
    (symbolEntry s.owner s).2 = failsOr (entryRefusal? s) (unlines (entryLines s)) := by
  by_cases hlisted : isListed s = true
  · obtain ⟨hexcluded, hshown⟩ := isListed_iff.1 hlisted
    rw [← Symbol.isShown_eq_false_iff, Bool.not_eq_false] at hshown
    have hentry : symbolEntry s.owner s = entry s.owner s s.label s.explanation := by
      rw [symbolEntry, hexcluded, if_neg Bool.false_ne_true, Symbol.labelAndText?_eq,
        if_pos hshown]
    rw [hentry, entry_eq, entryRefusal?, if_pos hlisted, entryLines, notesAbove,
      mainLine_of_isListed hlisted]
    simp only [hlisted, true_and]
  · rw [entryRefusal?, if_neg hlisted, entryLines, notesAbove, if_neg fun h => hlisted h.1,
      symbolEntry, mainLine]
    by_cases hexcluded : s.hasAttribute Tag.excluded = true
    · rw [if_pos hexcluded, if_pos hexcluded]
      rfl
    · have hnone : s.nomenclature = none ∧ s.nargs ≠ 0 := by
        rw [isListed_iff, not_and_not_right] at hlisted
        exact hlisted (Bool.eq_false_iff.2 hexcluded)
      rw [if_neg hexcluded, if_neg hexcluded, if_pos hnone, Symbol.labelAndText?_eq,
        Symbol.isShown_eq_false_iff.2 hnone]
      rfl

/-! ## The lines of all symbols -/

/-- The symbols in use, section by section. -/
def inUse (usages : Option UsageMap) (c : Catalogue) : List Symbol :=
  c.sections.values.flatMap fun o => (c.symbolsOf o).filter fun s => IsUsed usages s.command

/-- The lines of the entries. -/
def entriesOf (usages : Option UsageMap) (c : Catalogue) : List Text :=
  (inUse usages c).flatMap entryLines

theorem findSome?_entryRefusal? (symbols : List Symbol) :
    symbols.findSome? entryRefusal? = (symbols.filter isListed).findSome? Symbol.refusal? := by
  induction symbols with
  | nil => rfl
  | cons s symbols ih =>
    rw [List.findSome?_cons, ih, entryRefusal?]
    by_cases h : isListed s = true
    · rw [if_pos h, List.filter_cons_of_pos h, List.findSome?_cons]
    · rw [if_neg h, List.filter_cons_of_neg h]

theorem snd_concat_cons (first : Logged) (rest : List Logged) :
    (concat (first :: rest)).2 = first.2.bind fun text => (concat rest).2.map (text ++ ·) := by
  obtain ⟨log, text⟩ := first
  cases text <;> rfl

/-- The texts are written up to the first failure. -/
theorem snd_concat {symbols : List Symbol} {f : Symbol → Logged}
    {error? : Symbol → Option ListingError} {lines : Symbol → List Text}
    (h : ∀ s ∈ symbols, (f s).2 = failsOr (error? s) (unlines (lines s))) :
    (concat (symbols.map f)).2 =
      failsOr (symbols.findSome? error?) (unlines (symbols.flatMap lines)) := by
  induction symbols with
  | nil => rfl
  | cons s symbols ih =>
    rw [List.forall_mem_cons] at h
    rw [List.map_cons, snd_concat_cons, h.1, ih h.2, List.findSome?_cons, List.flatMap_cons,
      unlines_append]
    cases error? s with
    | some e => rfl
    | none => exact map_failsOr _

theorem render_entries (h : c.WellFormed) (usages : Option UsageMap) :
    (render .entries usages c).2 =
      failsOr (((inUse usages c).filter isListed).findSome? Symbol.refusal?)
        (unlines (entriesOf usages c)) := by
  have hsymbols : (c.sections.values.flatMap fun o =>
      ((c.symbolsOf o).filter fun s => isUsed usages s.command).map (symbolEntry o.name)) =
      (inUse usages c).map fun s => symbolEntry s.owner s := by
    rw [inUse, List.map_flatMap]
    refine List.flatMap_congr fun o ho => ?_
    simp only [isUsed_eq]
    refine List.map_congr_left fun s hs => ?_
    rw [h.owner_of_mem_symbolsOf ho (List.mem_of_mem_filter hs)]
  show (entries usages c).2 = _
  rw [entries, hsymbols, snd_concat fun s _ => symbolEntry_eq s, findSome?_entryRefusal?, entriesOf]

/-! ## One line each -/

/-- A text that stays one line if a line feed is put behind it. -/
def IsLine (line : Text) : Prop := '\n' ∉ line ∧ line.getLast? ≠ some '\r'

theorem IsLine.append {a b : Text} (ha : '\n' ∉ a) (hb : IsLine b) (hne : b ≠ []) :
    IsLine (a ++ b) := by
  refine ⟨?_, ?_⟩
  · rw [List.mem_append, not_or]
    exact ⟨ha, hb.1⟩
  · rw [List.getLast?_append_of_ne_nil _ hne]
    exact hb.2

theorem IsLine.commentLine {message : Text} (h : IsLine message) (hne : message ≠ []) :
    IsLine (commentLine message) :=
  .append (by decide) h hne

theorem isLine_command {command : Text} (h : IsCommand command) : IsLine command := by
  refine ⟨Symbol.newline_notMem_command h, fun hlast => ?_⟩
  obtain ⟨letters, -, hletters, rfl⟩ := h
  rcases List.mem_cons.1 (List.mem_of_getLast? hlast) with heq | hmem
  · cases heq
  · cases hletters _ hmem

theorem newline_notMem_bareName (h : s.OneLine) : '\n' ∉ s.bareName := fun hmem =>
  Symbol.newline_notMem_command h.command ((List.dropWhile_sublist _).subset hmem)

theorem newline_notMem_label (h : s.OneLine) : '\n' ∉ s.label := by
  have hcommand := Symbol.newline_notMem_command h.command
  unfold Symbol.label
  cases he : s.nomenclature with
  | none => simp [hcommand]
  | some e => simp [(h.nomenclature e he).1]

theorem newline_notMem_explanation (h : s.OneLine) : '\n' ∉ s.explanation := by
  unfold Symbol.explanation
  cases he : s.nomenclature with
  | none => exact h.comment
  | some e => exact (h.nomenclature e he).2

theorem newline_notMem_target (h : s.OneLine) : '\n' ∉ s.target := h.attributes.getD

theorem newline_notMem_remark (h : s.OneLine) : '\n' ∉ s.remark := by
  have htrim := newline_notMem_trim (newline_notMem_explanation h)
  have htarget := newline_notMem_target h
  have hsentence : '\n' ∉ s.sentence := by
    simp only [Symbol.sentence]
    split <;> simp [htrim]
  rw [Symbol.remark, List.mem_append, not_or]
  refine ⟨hsentence, ?_⟩
  unfold Symbol.crossReference
  split <;> simp [htarget]

theorem newline_notMem_sortOptions (h : s.OneLine) : '\n' ∉ sortOptions s.owner s := by
  have hgroup : '\n' ∉ s.owner.map fun c => if c = '/' then '-' else c := by
    intro hmem
    obtain ⟨c, hc, heq⟩ := List.mem_map.1 hmem
    split at heq
    · cases heq
    · exact h.owner (heq ▸ hc)
  unfold sortOptions
  cases hsort : s.attributes.find? Tag.sortKey with
  | none => simp [hgroup]
  | some key => simp [hgroup, h.attributes.find? hsort]

theorem isLine_entryLineWith (h : s.OneLine) {text : Text} (htext : '\n' ∉ text) :
    IsLine (entryLineWith s text) := by
  refine .append ?_ ⟨by decide, by decide⟩ (by decide)
  simp [newline_notMem_sortOptions h, newline_notMem_bareName h, newline_notMem_label h,
    newline_notMem_target h, htext]

theorem isLine_entryLine (h : s.OneLine) : IsLine (entryLine s) := by
  refine isLine_entryLineWith h ?_
  unfold entryText
  split
  · unfold placeholder
    simp [newline_notMem_bareName h]
  · exact newline_notMem_remark h

theorem isLine_of_mem_entryLines (h : s.OneLine) : ∀ line ∈ entryLines s, IsLine line := by
  have hcommand := isLine_command h.command
  have hexcluded : IsLine ("Skipping symbol " ++ s.command ++ " because of " ++ Tag.excluded) :=
    .append (by simp [hcommand.1]) ⟨by decide, by decide⟩ (by decide)
  have hargs : IsLine ("Skipping symbol " ++ s.command ++ " because it has args.") :=
    .append (by simp [hcommand.1]) ⟨by decide, by decide⟩ (by decide)
  have hmissing : IsLine ("No text for " ++ s.command) :=
    .append (by decide) hcommand (by obtain ⟨_, -, -, h⟩ := h.command; simp [h])
  intro line hline
  rw [entryLines, List.mem_append, List.mem_singleton] at hline
  rcases hline with hnote | rfl
  · unfold notesAbove at hnote
    split at hnote
    · rw [List.mem_singleton.1 hnote]
      exact hmissing.commentLine (by simp)
    · cases hnote
  · unfold mainLine
    split
    · exact hexcluded.commentLine (by simp)
    · split
      · exact hargs.commentLine (by simp)
      · exact isLine_entryLine h

/-- The accounting of the entries. -/
structure EntriesAccount (c : Catalogue) (usages : Option UsageMap) : Prop where
  /-- Every symbol in use has one place: section by section, and in a section in the order in which
  they came. -/
  inUse_perm : (inUse usages c).Perm (c.symbols.values.filter fun s => IsUsed usages s.command)
  inUse_eq : inUse usages c = c.sections.values.flatMap fun o =>
    c.symbols.values.filter fun s => s.owner = o.name ∧ IsUsed usages s.command
  increasing : (c.symbols.values.map Symbol.order).Pairwise (· < ·)
  /-- There are no entries exactly if a symbol in use that is to get one has a cross-reference
  without a prefix. -/
  fails_iff : (∃ e, (render .entries usages c).2 = .error e) ↔
    ∃ s ∈ c.symbols.values, IsUsed usages s.command ∧ isListed s = true ∧ ∃ t, s.RefersUnprefixed t
  /-- The error is that of the first one. -/
  error_iff : ∀ e, (render .entries usages c).2 = .error e ↔
    ∃ before s after t, (inUse usages c).filter isListed = before ++ s :: after ∧
      (∀ r ∈ before, ∀ t, ¬ r.RefersUnprefixed t) ∧ s.RefersUnprefixed t ∧
        e = .unprefixedReference s.command t
  /-- Otherwise each symbol in use has its line, with at most one note above it. -/
  text_eq : (∀ s ∈ c.symbols.values, IsUsed usages s.command → isListed s = true →
      ∀ t, ¬ s.RefersUnprefixed t) →
    (render .entries usages c).2 = .ok (unlines (entriesOf usages c))
  lines_eq : ∀ text, (render .entries usages c).2 = .ok text →
    Text.lines text = (inUse usages c).flatMap fun s => notesAbove s ++ [mainLine s]

end Nomenclature

namespace Catalogue

open Nomenclature

variable {usages : Option UsageMap} {c : Catalogue} {s : Symbol}

theorem WellFormed.inUse_perm (h : c.WellFormed) (usages : Option UsageMap) :
    (inUse usages c).Perm (c.symbols.values.filter fun s => IsUsed usages s.command) := by
  rw [inUse, ← List.filter_flatMap]
  exact (h.perm_symbolsOf (.refl _)).filter _

theorem WellFormed.mem_inUse_iff (h : c.WellFormed) :
    s ∈ inUse usages c ↔ s ∈ c.symbols.values ∧ IsUsed usages s.command := by
  rw [(h.inUse_perm usages).mem_iff, List.mem_filter, decide_eq_true_iff]

theorem WellFormed.entriesAccount (h : c.WellFormed) (hlines : ∀ s ∈ c.symbols.values, s.OneLine)
    (usages : Option UsageMap) : EntriesAccount c usages where
  inUse_perm := h.inUse_perm usages
  inUse_eq := by
    refine List.flatMap_congr fun o ho => ?_
    rw [h.symbolsOf_eq ho, ownedBy, List.filter_filter]
    exact List.filter_congr fun s _ => by simp [Bool.and_comm]
  increasing := h.symbols_increasing
  fails_iff := by
    simp only [render_entries h, failsOr_eq_error_iff, exists_findSome?_refusal?, List.mem_filter,
      h.mem_inUse_iff, and_assoc]
  error_iff e := by
    rw [render_entries h, failsOr_eq_error_iff, findSome?_refusal?_eq_some_iff]
  text_eq hprefixed := by
    rw [render_entries h, failsOr_eq_ok_iff, findSome?_refusal?_eq_none_iff]
    refine ⟨fun s hs => ?_, rfl⟩
    obtain ⟨hs, hlisted⟩ := List.mem_filter.1 hs
    obtain ⟨hs, hused⟩ := h.mem_inUse_iff.1 hs
    exact hprefixed s hs hused hlisted
  lines_eq text htext := by
    rw [render_entries h, failsOr_eq_ok_iff] at htext
    obtain ⟨-, rfl⟩ := htext
    refine lines_unlines fun line hline => ?_
    obtain ⟨s, hs, hline⟩ := List.mem_flatMap.1 hline
    exact isLine_of_mem_entryLines (hlines s (h.mem_inUse_iff.1 hs).1) line hline

/-- **The entries after any run, with any usage map.** -/
theorem entriesAccount_run (knownTags : List Text) (operations : List Operation)
    (usages : Option UsageMap) : EntriesAccount ((new knownTags).run operations) usages :=
  ((wellFormed_new knownTags).run operations).entriesAccount
    (oneLine_run knownTags operations).symbols usages

end Catalogue

end TexSymbols
