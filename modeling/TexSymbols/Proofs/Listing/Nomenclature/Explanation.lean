import TexSymbols.Proofs.Listing.Nomenclature.Entries

/-!
# Explanations that are missing

* `Symbol.IsUnexplained` — the explanation is blank.
* `Symbol.remark_eq_nil_iff` — an entry says nothing if the explanation is blank and there is no
  cross-reference.
* `Nomenclature.entryText_eq_placeholder_iff` — the symbols that have the placeholder.
* `Nomenclature.missingNote_mem_iff` — the symbols whose note stands among the lines.
* `Nomenclature.FlagsMissing` — missing explanations have both.
* `Nomenclature.ExplanationAccount` — what is written for explanations and for missing ones;
  `explanationAccount_run` — after every run, with any usage map;
  `not_flagsMissing_crossReferenced` — a missing explanation without note and placeholder.
-/

namespace TexSymbols

namespace Symbol

variable {s : Symbol}

/-- Nothing but blanks explains the symbol. -/
def IsUnexplained (s : Symbol) : Prop := Text.trim s.explanation = []

theorem sentence_of_isUnexplained (h : s.IsUnexplained) : s.sentence = [] := by
  simp only [sentence]
  rw [if_pos (.inl h)]
  exact h

/-- An explanation is there with a period behind it, or at its end. -/
theorem sentence_cases (h : ¬ s.IsUnexplained) :
    Text.trim s.explanation <+: s.sentence ∧ s.sentence.getLast? = some '.' := by
  simp only [sentence]
  split
  · rename_i hcases
    exact ⟨List.prefix_refl _, hcases.resolve_left h⟩
  · exact ⟨List.prefix_append .., by rw [List.getLast?_append]; rfl⟩

/-- **An entry says nothing if neither an explanation nor a cross-reference is there.** -/
theorem remark_eq_nil_iff : s.remark = [] ↔ s.IsUnexplained ∧ s.target = [] := by
  rw [remark, List.append_eq_nil_iff]
  refine and_congr ⟨fun hnil => ?_, sentence_of_isUnexplained⟩ ?_
  · by_contra h
    have hlast := (sentence_cases h).2
    rw [hnil] at hlast
    cases hlast
  · by_cases h : s.target = [] <;> simp [crossReference, h]

end Symbol

namespace Nomenclature

variable {usages : Option UsageMap} {c : Catalogue} {s : Symbol} {text : Text}

theorem entryText_of_isUnexplained (h : s.IsUnexplained) : entryText s =
    if s.target = [] then placeholder s
    else " \\nomencref\x7b" ++ s.target ++ "\x7d" := by
  by_cases htarget : s.target = []
  · rw [if_pos htarget, entryText, if_pos (Symbol.remark_eq_nil_iff.2 ⟨h, htarget⟩)]
  · have hremark : ¬ s.remark = [] := fun hnil => htarget (Symbol.remark_eq_nil_iff.1 hnil).2
    rw [if_neg htarget, entryText, if_neg hremark, Symbol.remark,
      Symbol.sentence_of_isUnexplained h, List.nil_append, Symbol.crossReference, if_neg htarget]

theorem entryText_of_explained (h : ¬ s.IsUnexplained) : entryText s = s.remark :=
  if_neg fun hnil => h (Symbol.remark_eq_nil_iff.1 hnil).1

/-- **The text is the placeholder if neither an explanation nor a cross-reference is there.** -/
theorem entryText_eq_placeholder_iff (hcommand : IsCommand s.command) :
    entryText s = placeholder s ↔ s.IsUnexplained ∧ s.target = [] := by
  constructor
  · intro heq
    have hunexplained : s.IsUnexplained := by
      by_contra h
      -- a period ends the explanation, and none stands in the placeholder
      have hperiod : '.' ∈ entryText s := by
        rw [entryText_of_explained h, Symbol.remark]
        exact List.mem_append_left _ (List.mem_of_getLast? (Symbol.sentence_cases h).2)
      have hname : '.' ∉ s.bareName := by
        intro hmem
        obtain ⟨letters, -, hletters, hs⟩ := hcommand
        have hmem := (List.dropWhile_sublist _).subset hmem
        rw [hs] at hmem
        rcases List.mem_cons.1 hmem with hmem | hmem
        · cases hmem
        · cases hletters _ hmem
      rw [heq] at hperiod
      unfold placeholder at hperiod
      simp [hname] at hperiod
    refine ⟨hunexplained, ?_⟩
    by_contra htarget
    rw [entryText_of_isUnexplained hunexplained, if_neg htarget] at heq
    have hhead : some ' ' = some '\\' := congrArg List.head? heq
    exact absurd hhead (by decide)
  · rintro ⟨hunexplained, htarget⟩
    rw [entryText_of_isUnexplained hunexplained, if_pos htarget]

/-! ## Notes among the lines -/

theorem missingNote_inj {r : Symbol} (h : missingNote s = missingNote r) : s.command = r.command :=
  List.append_cancel_left (List.append_cancel_left h)

/-- A note is neither a comment on a symbol that is skipped nor an entry. -/
theorem missingNote_ne_mainLine (s r : Symbol) : missingNote s ≠ mainLine r := by
  have hskip : ∀ rest : Text, missingNote s ≠ commentLine ("Skipping symbol " ++ rest) := by
    intro rest heq
    have hhead : some 'N' = some 'S' := congrArg List.head? (List.append_cancel_left heq)
    exact absurd hhead (by decide)
  unfold mainLine
  split
  · rw [List.append_assoc]
    exact hskip _
  · split
    · rw [List.append_assoc]
      exact hskip _
    · intro heq
      have hhead : some '%' = some '\\' := congrArg List.head? heq
      exact absurd hhead (by decide)

/-- **Whose note stands among the lines.** -/
theorem missingNote_mem_iff (h : c.WellFormed) (hs : s ∈ c.symbols.values) :
    missingNote s ∈ entriesOf usages c ↔
      IsUsed usages s.command ∧ isListed s = true ∧ s.IsUnexplained ∧ s.target = [] := by
  rw [← Symbol.remark_eq_nil_iff, entriesOf, List.mem_flatMap]
  constructor
  · rintro ⟨r, hr, hline⟩
    obtain ⟨hr, hused⟩ := h.mem_inUse_iff.1 hr
    rw [entryLines, List.mem_append, List.mem_singleton, notesAbove] at hline
    have hnote := hline.resolve_right (missingNote_ne_mainLine s r)
    split at hnote
    · rename_i hcases
      have hcommand := missingNote_inj (List.mem_singleton.1 hnote)
      obtain rfl := List.inj_on_of_nodup_map h.commands_nodup hs hr hcommand
      exact ⟨hused, hcases⟩
    · cases hnote
  · rintro ⟨hused, hcases⟩
    refine ⟨s, h.mem_inUse_iff.2 ⟨hs, hused⟩, List.mem_append_left _ ?_⟩
    rw [notesAbove, if_pos hcases]
    exact List.mem_singleton_self _

/-! ## All explanations -/

/-- Whether the symbols with a blank explanation are those with a note and a placeholder. -/
def FlagsMissing (usages : Option UsageMap) (c : Catalogue) : Prop :=
  ∀ text, (render .entries usages c).2 = .ok text →
    ∀ s ∈ c.symbols.values, IsUsed usages s.command → isListed s = true →
      ((missingNote s ∈ Text.lines text ∧ entryLineWith s (placeholder s) ∈ Text.lines text) ↔
        s.IsUnexplained)

/-- What is written for the explanations of symbols. -/
structure ExplanationAccount (c : Catalogue) (usages : Option UsageMap) : Prop where
  /-- Each symbol in use that is listed has an entry. -/
  entry_mem : ∀ text, (render .entries usages c).2 = .ok text →
    ∀ s ∈ c.symbols.values, IsUsed usages s.command → isListed s = true →
      entryLineWith s (entryText s) ∈ Text.lines text
  /-- There is a note for those that have neither an explanation nor a cross-reference. -/
  note_iff : ∀ text, (render .entries usages c).2 = .ok text → ∀ s ∈ c.symbols.values,
    (missingNote s ∈ Text.lines text ↔
      IsUsed usages s.command ∧ isListed s = true ∧ s.IsUnexplained ∧ s.target = [])
  /-- These are the ones with the placeholder. -/
  placeholder_iff : ∀ s ∈ c.symbols.values,
    (entryText s = placeholder s ↔ s.IsUnexplained ∧ s.target = [])
  /-- If only the explanation is missing, the text is the cross-reference behind a blank. -/
  reference_eq : ∀ s ∈ c.symbols.values, s.IsUnexplained → s.target ≠ [] →
    entryText s = " \\nomencref\x7b" ++ s.target ++ "\x7d"
  /-- An explanation stands at the beginning of the text. -/
  explanation_prefix : ∀ s ∈ c.symbols.values, ¬ s.IsUnexplained →
    Text.trim s.explanation <+: entryText s
  /-- So the missing explanations are flagged, as far as there is no cross-reference. -/
  flagsMissing_iff : ∀ text, (render .entries usages c).2 = .ok text →
    (FlagsMissing usages c ↔ ∀ s ∈ c.symbols.values, IsUsed usages s.command →
      isListed s = true → s.IsUnexplained → s.target = [])

end Nomenclature

namespace Catalogue

open Nomenclature

variable {c : Catalogue}

section Lines

variable {usages : Option UsageMap} {s : Symbol} {text : Text}

/-- A symbol in use that is listed has its line. -/
theorem WellFormed.entryLine_mem (h : c.WellFormed) (hlines : ∀ s ∈ c.symbols.values, s.OneLine)
    (htext : (render .entries usages c).2 = .ok text) (hs : s ∈ c.symbols.values)
    (hused : IsUsed usages s.command) (hlisted : isListed s = true) :
    entryLine s ∈ Text.lines text := by
  rw [(h.entriesAccount hlines usages).lines_eq text htext, List.mem_flatMap]
  refine ⟨s, h.mem_inUse_iff.2 ⟨hs, hused⟩, List.mem_append_right _ ?_⟩
  rw [mainLine_of_isListed hlisted]
  exact List.mem_singleton_self _

theorem WellFormed.missingNote_mem_lines_iff (h : c.WellFormed)
    (hlines : ∀ s ∈ c.symbols.values, s.OneLine)
    (htext : (render .entries usages c).2 = .ok text) (hs : s ∈ c.symbols.values) :
    missingNote s ∈ Text.lines text ↔
      IsUsed usages s.command ∧ isListed s = true ∧ s.IsUnexplained ∧ s.target = [] := by
  rw [(h.entriesAccount hlines usages).lines_eq text htext]
  exact missingNote_mem_iff h hs

/-- **Note and placeholder come together**, if neither an explanation nor a cross-reference is
there. -/
theorem WellFormed.flagged_iff (h : c.WellFormed) (hlines : ∀ s ∈ c.symbols.values, s.OneLine)
    (htext : (render .entries usages c).2 = .ok text) (hs : s ∈ c.symbols.values)
    (hused : IsUsed usages s.command) (hlisted : isListed s = true) :
    (missingNote s ∈ Text.lines text ∧ entryLineWith s (placeholder s) ∈ Text.lines text) ↔
      s.IsUnexplained ∧ s.target = [] := by
  have hnote := h.missingNote_mem_lines_iff hlines htext hs
  constructor
  · exact fun hflag => (hnote.1 hflag.1).2.2
  · intro hmissing
    have hline := h.entryLine_mem hlines htext hs hused hlisted
    rw [entryLine, (entryText_eq_placeholder_iff (hlines s hs).command).2 hmissing] at hline
    exact ⟨hnote.2 ⟨hused, hlisted, hmissing⟩, hline⟩

end Lines

theorem WellFormed.explanationAccount (h : c.WellFormed)
    (hlines : ∀ s ∈ c.symbols.values, s.OneLine) (usages : Option UsageMap) :
    ExplanationAccount c usages where
  entry_mem _ htext _ hs hused hlisted := h.entryLine_mem hlines htext hs hused hlisted
  note_iff _ htext _ hs := h.missingNote_mem_lines_iff hlines htext hs
  placeholder_iff s hs := entryText_eq_placeholder_iff (hlines s hs).command
  reference_eq s _ hunexplained htarget := by
    rw [entryText_of_isUnexplained hunexplained, if_neg htarget]
  explanation_prefix s _ hexplained := by
    rw [entryText_of_explained hexplained]
    exact (Symbol.sentence_cases hexplained).1.trans (List.prefix_append ..)
  flagsMissing_iff text htext := by
    constructor
    · intro hall s hs hused hlisted hunexplained
      have hflag := (hall text htext s hs hused hlisted).2 hunexplained
      exact ((h.flagged_iff hlines htext hs hused hlisted).1 hflag).2
    · intro hall text' htext' s hs hused hlisted
      rw [h.flagged_iff hlines htext' hs hused hlisted, and_iff_left_iff_imp]
      exact hall s hs hused hlisted

/-- **Explanations after any run, with any usage map.** -/
theorem explanationAccount_run (knownTags : List Text) (operations : List Operation)
    (usages : Option UsageMap) : ExplanationAccount ((new knownTags).run operations) usages :=
  ((wellFormed_new knownTags).run operations).explanationAccount
    (oneLine_run knownTags operations).symbols usages

/-- A symbol without explanation that has a cross-reference. -/
def crossReferenced : List Operation :=
  [.read "t.tex" "%:section:s : S\n\\newcommand\x7b\\x\x7d\x7bx\x7d\n%:def:eq:x\n" none]

/-- Its entry, without a note above it. -/
def crossReferencedEntry : Text :=
  "\\nomenclature[symbols-s]" ++ "\x7b\\nomencLabel\x7bx\x7d\x7b$\\x$\x7d\x7d" ++
    "\x7b\\nomencText\x7bx\x7d\x7b \\nomencref\x7beq:x\x7d\x7d\x7beq:x\x7d\x7d\n"

/-- It is not flagged. -/
theorem not_flagsMissing_crossReferenced :
    (render .entries none ((new []).run crossReferenced)).2 = .ok crossReferencedEntry ∧
      ¬ FlagsMissing none ((new []).run crossReferenced) := by
  have hrender : (render .entries none ((new []).run crossReferenced)).2 =
      .ok crossReferencedEntry := by decide +kernel
  have hsymbol : ∃ s ∈ ((new []).run crossReferenced).symbols.values, isListed s = true ∧
      Text.trim s.explanation = [] ∧ missingNote s ∉ Text.lines crossReferencedEntry := by
    decide +kernel
  refine ⟨hrender, fun hall => ?_⟩
  obtain ⟨s, hs, hlisted, hblank, hnote⟩ := hsymbol
  exact hnote ((hall _ hrender s hs (fun _ hm => by cases hm) hlisted).2 hblank).1

end Catalogue

end TexSymbols
