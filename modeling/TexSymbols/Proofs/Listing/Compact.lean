import TexSymbols.Listing.Compact
import TexSymbols.Proofs.Catalogue.Inheritance
import TexSymbols.Proofs.Catalogue.Search
import TexSymbols.Proofs.Catalogue.Sequence
import TexSymbols.Proofs.Symbol.Regenerate
import TexSymbols.Proofs.Text.Quoted
import TexSymbols.Proofs.Token.Content

/-!
# Compacted definitions are read as what they were

* `CompactOptions.contents` — what should be read of an event: the line that was passed through, two
  definitions of a symbol between other lines, or one other line.
* `Symbol.Rewritable` — what a symbol has from its line; `CompactOptions.writes_symbolText` — what is
  written for such a symbol is read as that.
* `Catalogue.rewritable_run`, `Catalogue.readsAs_of_passthrough` — the symbols and lines of a run over
  texts without carriage returns.
* `Catalogue.Reclassified` — the items of the compacted events; `reclassified_run` — for every run
  over such texts.
-/

namespace TexSymbols

open Definition

/-! ## Balanced bodies -/

theorem balanced_of_letters {t : Text} (h : ∀ c ∈ t, isLetter c = true) : Balanced t := by
  induction t with
  | nil => exact .nil
  | cons c t ih =>
    rw [List.forall_mem_cons] at h
    refine .plain ?_ ?_ ?_ (ih h.2) <;>
      · rintro rfl
        cases h.1

/-- Braces around a balanced text. -/
theorem Balanced.braces {t : Text} (h : Balanced t) : Balanced ('{' :: (t ++ ['}'])) :=
  .group h .nil

theorem balanced_of_isCommand {name : Text} (h : IsCommand name) : Balanced name := by
  obtain ⟨letters, hne, hletters, rfl⟩ := h
  cases letters with
  | nil => exact absurd rfl hne
  | cons c letters => exact .escaped c (balanced_of_letters fun d hd => hletters d (.tail c hd))

namespace CompactOptions

variable {o : CompactOptions} {s : Symbol} {body : Text}

/-! ## What should be read -/

/-- The command without its backslash. -/
def nameText (s : Symbol) : Text := s.command.dropWhile (· = '\\')

/-- The name of the flag of a symbol. -/
def flagText (s : Symbol) : Text := "used" ++ nameText s

/-- A body in the colour, if there is one. -/
def colouredBody (o : CompactOptions) (body : Text) : Text :=
  match o.color with
  | some color => "\x7b\\color\x7b" ++ color ++ "\x7d " ++ body ++ "\x7d"
  | none => body

/-- A body with the mark around it that shows its first use, if first uses are marked. -/
def markedBody (o : CompactOptions) (s : Symbol) (body : Text) : Text :=
  if o.markFirst then
    "\\markfirst\x7b" ++ nameText s ++ "\x7d\x7b" ++ flagText s ++ "\x7d\x7b" ++ body ++ "\x7d"
  else body

/-- The body that is written for a symbol: symbols without arguments get the colour and, around it,
the mark. -/
def wrapped (o : CompactOptions) (s : Symbol) : Text :=
  if s.nargs = 0 then o.markedBody s (o.colouredBody s.body) else s.body

/-- The definition that is written for a symbol. -/
def rewritten (o : CompactOptions) (s : Symbol) : Definition :=
  ⟨s.command, s.nargs, o.wrapped s, []⟩

/-- Whether the symbol is kept. -/
def keeps (o : CompactOptions) (s : Symbol) : Bool := o.select.all (· ∈ s.attributes.keys)

/-- Whether a flag is defined for the symbol: it is kept, has no arguments, and first uses are
marked. -/
def isFlagged (o : CompactOptions) (s : Symbol) : Bool := o.markFirst && o.keeps s && s.nargs == 0

/-- The flag that is defined for a symbol. -/
def flag? (o : CompactOptions) (s : Symbol) : Option Text :=
  if o.isFlagged s then some (flagText s) else none

/-- The line that defines a flag. -/
def flagContent (name : Text) : Content :=
  .passthrough ("\\newbool\x7b" ++ name ++ "\x7d\\setbool\x7b" ++ name ++ "\x7d\x7bfalse\x7d")

/-- What should be read of a symbol that is kept: two definitions between other lines. -/
def keptContents (o : CompactOptions) (s : Symbol) : List Content :=
  [.passthrough ("\\ifdefined" ++ s.command ++ "%"), .definition (o.rewritten s),
    .passthrough "\\else%", .definition (o.rewritten s), .passthrough "\\fi",
    .passthrough s.trailer]

/-- The comment that stands in place of a symbol without the attribute. -/
def skipLine (s : Symbol) (tag : Text) : Text :=
  "% " ++ s.command ++ ": Skipped because no field " ++ Text.quoted tag

/-- What should be read of a symbol. -/
def symbolContents (o : CompactOptions) (s : Symbol) : List Content :=
  if o.keeps s then (o.flag? s).toList.map flagContent ++ o.keptContents s
  else o.select.toList.map fun tag => .passthrough (skipLine s tag)

/-- What should be read of an event. -/
def contents (o : CompactOptions) (c : Catalogue) : Event → List Content
  | .passthrough line _ => [.passthrough line]
  | .declared _ => []
  | .defined command => (c.symbols.find? command).toList.flatMap o.symbolContents

/-- What should be read before the events. -/
def header (o : CompactOptions) : List Content :=
  if o.markFirst then [.passthrough "%\\newcommand\x7b\\markfirst\x7d[3]\x7b#3\x7d"] else []

/-- Options whose colour can be put into a body. -/
def ColorFits (o : CompactOptions) : Prop := ∀ color ∈ o.color, '\n' ∉ color ∧ Balanced color

/-! ## Bodies -/

theorem markBody_colorBody_eq (o : CompactOptions) (s : Symbol) (body : Text) :
    o.markBody s (o.colorBody body) = o.markedBody s (o.colouredBody body) := by
  have hcolour : o.colorBody body = o.colouredBody body := by
    unfold colorBody colouredBody
    cases o.color <;> rfl
  rw [hcolour]
  rfl

theorem colouredBody_eq (color : Text) (h : o.color = some color) :
    o.colouredBody body =
      '{' :: ("\\color" ++ '{' :: (color ++ ['}']) ++ ' ' :: body ++ ['}']) := by
  have hopen : ("\x7b\\color\x7b" : Text) = '{' :: ("\\color" ++ ['{']) := rfl
  have hclose : ("\x7d " : Text) = ['}', ' '] := rfl
  have hend : ("\x7d" : Text) = ['}'] := rfl
  rw [colouredBody, h, hopen, hclose, hend]
  simp

theorem markedBody_eq (h : o.markFirst = true) :
    o.markedBody s body = "\\markfirst" ++ '{' :: (nameText s ++ ['}']) ++
      '{' :: (flagText s ++ ['}']) ++ '{' :: (body ++ ['}']) := by
  have hopen : ("\\markfirst\x7b" : Text) = "\\markfirst" ++ ['{'] := rfl
  have hnext : ("\x7d\x7b" : Text) = ['}', '{'] := rfl
  have hend : ("\x7d" : Text) = ['}'] := rfl
  rw [markedBody, if_pos h, hopen, hnext, hend]
  simp

theorem balanced_colouredBody (hcolor : o.ColorFits) (hbody : Balanced body) :
    Balanced (o.colouredBody body) := by
  cases h : o.color with
  | none => rwa [colouredBody, h]
  | some color =>
    have hcommand : Balanced "\\color" :=
      balanced_of_isCommand ⟨"color", by decide, List.all_eq_true.1 rfl, rfl⟩
    have hspace : Balanced (' ' :: body) := .plain (by decide) (by decide) (by decide) hbody
    rw [colouredBody_eq color h]
    exact ((hcommand.append (hcolor color h).2.braces).append hspace).braces

theorem newline_notMem_colouredBody (hcolor : o.ColorFits) (hbody : '\n' ∉ body) :
    '\n' ∉ o.colouredBody body := by
  cases h : o.color with
  | none => rwa [colouredBody, h]
  | some color =>
    rw [colouredBody_eq color h]
    simp [(hcolor color h).1, hbody]

theorem nameText_eq {letters : Text} (hne : letters ≠ [])
    (hletters : ∀ c ∈ letters, isLetter c = true) (h : s.command = '\\' :: letters) :
    nameText s = letters := by
  cases letters with
  | nil => exact absurd rfl hne
  | cons c letters =>
    have hc : ¬ c = '\\' := by
      rintro rfl
      cases hletters _ List.mem_cons_self
    rw [nameText, h, List.dropWhile_cons_of_pos (by simp),
      List.dropWhile_cons_of_neg (by simpa using hc)]

theorem isLetter_flagText (h : IsCommand s.command) : ∀ c ∈ flagText s, isLetter c = true := by
  obtain ⟨letters, hne, hletters, hcommand⟩ := h
  rw [flagText, nameText_eq hne hletters hcommand]
  exact List.forall_mem_append.2 ⟨List.all_eq_true.1 rfl, hletters⟩

theorem isLetter_nameText (h : IsCommand s.command) : ∀ c ∈ nameText s, isLetter c = true :=
  fun c hc => isLetter_flagText h c (List.mem_append_right _ hc)

theorem newline_notMem_of_letters {t : Text} (h : ∀ c ∈ t, isLetter c = true) : '\n' ∉ t :=
  fun hmem => by cases h _ hmem

/-- Different commands have different flags. -/
theorem command_eq_of_flagText_eq {t : Symbol} (hs : IsCommand s.command) (ht : IsCommand t.command)
    (h : flagText s = flagText t) : s.command = t.command := by
  obtain ⟨letters, hne, hletters, hcommand⟩ := hs
  obtain ⟨letters', hne', hletters', hcommand'⟩ := ht
  have hname : nameText s = nameText t := List.append_cancel_left h
  rw [nameText_eq hne hletters hcommand, nameText_eq hne' hletters' hcommand'] at hname
  rw [hcommand, hcommand', hname]

end CompactOptions

/-- A symbol as it is read from a line without line breaks. -/
structure Symbol.Rewritable (s : Symbol) : Prop where
  isCommand : IsCommand s.command
  nargs_lt : s.nargs < arityBound
  synonyms_eq : s.synonyms = []
  body_balanced : Balanced s.body
  newline_notMem_body : '\n' ∉ s.body
  newline_notMem_comment : '\n' ∉ s.comment
  return_notMem_comment : '\r' ∉ s.comment

theorem Symbol.rewritable_of_readable {line : Text} {s : Symbol} (hnewline : '\n' ∉ line)
    (hreturn : '\r' ∉ line) (h : Readable line s.toDefinition) (hsynonyms : s.synonyms = []) :
    s.Rewritable := by
  obtain ⟨hbody, hcomment⟩ := newline_notMem_of_readable h hnewline
  refine ⟨h.isCommand, h.nargs_lt, hsynonyms, balanced_iff.2 (h.group_eq []), hbody, hcomment, ?_⟩
  obtain ⟨before, rest, rfl, heq⟩ := h.line_eq
  intro hmem
  rw [heq, commentOf] at hmem
  have hrest : '\r' ∈ rest := List.mem_of_mem_filter (Text.trim_subset _ hmem)
  exact hreturn (by simp [hrest])

namespace CompactOptions

variable {o : CompactOptions} {s : Symbol}

theorem balanced_wrapped (hcolor : o.ColorFits) (hs : s.Rewritable) : Balanced (o.wrapped s) := by
  unfold wrapped
  split
  · have hbody := balanced_colouredBody hcolor hs.body_balanced
    cases hmark : o.markFirst with
    | false => rwa [markedBody, if_neg (by simp [hmark])]
    | true =>
      have hcommand : Balanced "\\markfirst" :=
        balanced_of_isCommand ⟨"markfirst", by decide, List.all_eq_true.1 rfl, rfl⟩
      have hname := balanced_of_letters (isLetter_nameText hs.isCommand)
      have hflag := balanced_of_letters (isLetter_flagText hs.isCommand)
      rw [markedBody_eq hmark]
      exact ((hcommand.append hname.braces).append hflag.braces).append hbody.braces
  · exact hs.body_balanced

theorem newline_notMem_wrapped (hcolor : o.ColorFits) (hs : s.Rewritable) :
    '\n' ∉ o.wrapped s := by
  unfold wrapped
  split
  · have hbody := newline_notMem_colouredBody hcolor hs.newline_notMem_body
    cases hmark : o.markFirst with
    | false => rwa [markedBody, if_neg (by simp [hmark])]
    | true =>
      have hname := newline_notMem_of_letters (isLetter_nameText hs.isCommand)
      have hflag := newline_notMem_of_letters (isLetter_flagText hs.isCommand)
      rw [markedBody_eq hmark]
      simp [hname, hflag, hbody]
  · exact hs.newline_notMem_body

/-! ## What is written -/

theorem writes_guarded {name body : Text} {nargs : Nat} (hname : IsCommand name)
    (hnargs : nargs < arityBound) (hbody : Balanced body) (hnewline : '\n' ∉ body) :
    Writes (Symbol.guarded name nargs body)
      [.passthrough ("\\ifdefined" ++ name ++ "%"), .definition ⟨name, nargs, body, []⟩,
        .passthrough "\\else%", .definition ⟨name, nargs, body, []⟩, .passthrough "\\fi"] := by
  have hgroup : ∀ u, braceGroup? ('{' :: (body ++ '}' :: u)) = some (body, u) :=
    braceGroup?_of_balanced hbody
  have hends := Symbol.ends_guardedLines hname hnewline nargs
  have hplain := Symbol.plainLines_guarded hname hnargs hgroup
  have hre : Content.ofLine ("  \\renewcommand" ++ Symbol.parameters name nargs body ++ "%") =
      .definition ⟨name, nargs, body, []⟩ :=
    Content.ofLine_of_definition (read_parameters hname hnargs (hgroup "%") rfl)
  have hnew : Content.ofLine ("  \\newcommand" ++ Symbol.parameters name nargs body ++ "%") =
      .definition ⟨name, nargs, body, []⟩ :=
    Content.ofLine_of_definition (read_parameters hname hnargs (hgroup "%") rfl)
  have hif : Content.ofLine ("\\ifdefined" ++ name ++ "%") =
      .passthrough ("\\ifdefined" ++ name ++ "%") :=
    Content.ofLine_of_other (read_of_no_keyword rfl)
  have helse : Content.ofLine "\\else%" = .passthrough "\\else%" :=
    Content.ofLine_of_other (read_of_no_keyword rfl)
  have hfi : Content.ofLine "\\fi" = .passthrough "\\fi" :=
    Content.ofLine_of_other (read_of_no_keyword rfl)
  refine ⟨Symbol.guardedLines name nargs body, ?_, fun line hline => ?_, ?_⟩
  · rw [unlines, ← Symbol.guarded_append, List.append_nil]
  · exact ⟨(hends line hline).1, (hends line hline).2, hplain.untagged line hline⟩
  · simp only [Symbol.guardedLines, List.map_cons, List.map_nil, hif, hre, helse, hnew, hfi]

/-- The comment behind a definition, or an empty line. -/
theorem writes_trailer (hs : s.Rewritable) :
    Writes (s.trailer ++ ['\n']) [.passthrough s.trailer] := by
  refine .line ?_
  unfold Symbol.trailer
  split
  · exact .ordinary (by simp) (by simp) rfl (read_of_no_keyword rfl)
  · have hnewline : '\n' ∉ ("% " : Text) ++ s.comment := by
      rw [List.mem_append, not_or]
      exact ⟨by decide, hs.newline_notMem_comment⟩
    have hreturn : '\r' ∉ ("% " : Text) ++ s.comment := by
      rw [List.mem_append, not_or]
      exact ⟨by decide, hs.return_notMem_comment⟩
    have hspace : (some ' ' : Option Char) ≠ some ':' := by decide
    exact .comment hnewline (fun hlast => hreturn (List.mem_of_getLast? hlast)) rfl hspace

/-- The line that stands in place of a symbol. -/
theorem writes_skipLine (hs : s.Rewritable) (tag : Text) :
    Writes (skipLine s tag ++ ['\n']) [.passthrough (skipLine s tag)] := by
  have hquoted : '\n' ∉ Text.quoted tag := by
    intro h
    have hvisible := Text.isVisible_of_mem_quoted h
    revert hvisible
    decide +kernel
  have hnewline : '\n' ∉ skipLine s tag := by
    simp [skipLine, Symbol.newline_notMem_command hs.isCommand, hquoted]
  have hlast : (skipLine s tag).getLast? = some '"' := by
    rw [skipLine, Text.quoted, ← List.cons_append, ← List.append_assoc, List.getLast?_concat]
  have hspace : (some ' ' : Option Char) ≠ some ':' := by decide
  exact .line (.comment hnewline (by rw [hlast]; decide) rfl hspace)

theorem writes_flag {name : Text} (h : '\n' ∉ name) :
    Writes ("\\newbool\x7b" ++ name ++ "\x7d\\setbool\x7b" ++ name ++ "\x7d\x7bfalse\x7d\n")
      [flagContent name] := by
  have hend : ("\x7d\x7bfalse\x7d\n" : Text) = "\x7d\x7bfalse\x7d" ++ ['\n'] := rfl
  have hlast : ∀ t : Text, (t ++ "\x7d\x7bfalse\x7d").getLast? = some '}' := by
    intro t
    rw [show ("\x7d\x7bfalse\x7d" : Text) = "\x7d\x7bfalse" ++ ['}'] from rfl, ← List.append_assoc,
      List.getLast?_concat]
  rw [hend, ← List.append_assoc]
  refine .line (.ordinary ?_ ?_ rfl (read_of_no_keyword rfl))
  · simp [h]
  · rw [hlast]
    decide

theorem writes_flags (hs : s.Rewritable) (hkeeps : o.keeps s = true) (hnargs : s.nargs = 0) :
    Writes (if o.markFirst then flagLine s else []) ((o.flag? s).toList.map flagContent) := by
  have hnewline := newline_notMem_of_letters (isLetter_flagText hs.isCommand)
  by_cases hmark : o.markFirst = true
  · have hflag : o.flag? s = some (flagText s) := by simp [flag?, isFlagged, hmark, hkeeps, hnargs]
    rw [if_pos hmark, hflag]
    exact writes_flag hnewline
  · have hflag : o.flag? s = none := by simp [flag?, isFlagged, hmark]
    rw [if_neg hmark, hflag]
    exact .nil

theorem writes_preamble (o : CompactOptions) : Writes o.preamble o.header := by
  unfold preamble header
  split
  · have hline : ("%\\newcommand\x7b\\markfirst\x7d[3]\x7b#3\x7d\n" : Text) =
        "%\\newcommand\x7b\\markfirst\x7d[3]\x7b#3\x7d" ++ ['\n'] := rfl
    have hslash : (some '\\' : Option Char) ≠ some ':' := by decide
    rw [hline]
    exact .line (.comment (by decide) (by decide) rfl hslash)
  · exact .nil

/-- **What is written for a symbol is read as two definitions of it**, or as one other line if it is
skipped. -/
theorem writes_symbolText (hcolor : o.ColorFits) (hs : s.Rewritable) :
    Writes (o.symbolText s) (o.symbolContents s) := by
  have hbody := writes_guarded hs.isCommand hs.nargs_lt (balanced_wrapped hcolor hs)
    (newline_notMem_wrapped hcolor hs)
  have hkept := hbody.append (writes_trailer hs)
  have hregenerate : ∀ f : Text → Text, f s.body = o.wrapped s →
      Writes (s.regenerate f ++ ['\n']) (o.keptContents s) := by
    intro f hf
    rw [Symbol.regenerate_eq, Symbol.names, hs.synonyms_eq, List.map_singleton, Text.join, hf,
      List.append_assoc]
    exact hkept
  have hfeed : ("\n" : Text) = ['\n'] := rfl
  have hattribute : s.hasAttribute = fun tag => decide (tag ∈ s.attributes.keys) := by
    funext tag
    rw [Bool.eq_iff_iff, decide_eq_true_iff]
    exact OrderedMap.contains_iff
  rw [symbolText, symbolContents, hattribute]
  cases hfilter : o.select.filter fun tag => !decide (tag ∈ s.attributes.keys) with
  | some tag =>
    obtain ⟨hselect, htag⟩ := Option.filter_eq_some_iff.1 hfilter
    have hskipped : o.keeps s = false := by simpa [keeps, hselect] using htag
    simp only [hskipped, hselect, hfeed]
    exact writes_skipLine hs tag
  | none =>
    have hkeeps : o.keeps s = true := by
      cases hselect : o.select with
      | none => simp [keeps, hselect]
      | some tag => simpa [keeps, hselect] using hfilter
    rw [if_pos hkeeps]
    by_cases hnargs : s.nargs = 0
    · have hwrapped := hregenerate (fun body => o.markBody s (o.colorBody body))
        ((markBody_colorBody_eq o s s.body).trans (if_pos hnargs).symm)
      simp only [if_pos hnargs, hfeed, List.append_assoc]
      exact (writes_flags hs hkeeps hnargs).append hwrapped
    · have hflag : o.flag? s = none := by simp [flag?, isFlagged, hnargs]
      simp only [if_neg hnargs, hfeed, hflag]
      exact hregenerate id (if_neg hnargs).symm

/-- The flag that is defined for an event. -/
def eventFlag? (o : CompactOptions) (c : Catalogue) (event : Event) : Option Text :=
  event.command?.bind fun command => (c.symbols.find? command).bind o.flag?

end CompactOptions

/-! ## Runs -/

namespace Catalogue

/-- The texts that the operations read hold no carriage returns. -/
def Returnless (operations : List Operation) : Prop :=
  ∀ file text pulls, .read file text pulls ∈ operations → '\r' ∉ text

variable {knownTags : List Text} {operations : List Operation}

theorem return_notMem_of_mem_lines (h : Returnless operations) {file text line : Text}
    {pulls : Option Nat} (hop : .read file text pulls ∈ operations)
    (hline : line ∈ Text.lines text) : '\r' ∉ line :=
  fun hmem => h file text pulls hop (Text.subset_of_mem_lines hline hmem)

theorem rewritable_run (h : Returnless operations) {s : Symbol}
    (hs : s ∈ ((new knownTags).run operations).symbols.values) : s.Rewritable := by
  obtain ⟨before, g, after, hpast, hfirst, -, hmade, -⟩ :=
    (historyInvariant_recorded.run knownTags operations).registered s hs
  have hg : g ∈ (new knownTags).history operations := by simp [hpast]
  obtain ⟨file, text, pulls, hop, hstream⟩ := first_mem_stream_of_mem_history hg
  rw [hfirst] at hstream
  obtain ⟨line, hline, hread⟩ := mem_stream_definition hstream
  exact Symbol.rewritable_of_readable (Text.notMem_of_mem_lines hline)
    (return_notMem_of_mem_lines h hop hline) (readable_of_read hread) hmade.synonyms_eq

theorem readsAs_of_passthrough (h : Returnless operations) {c : Catalogue} {line : Text}
    {loc : Location} (hevent : .passthrough line loc ∈ c.events operations) :
    ReadsAs line (.passthrough line) := by
  rw [← filterMap_event?_history] at hevent
  obtain ⟨g, hg, hgevent⟩ := List.mem_filterMap.1 hevent
  obtain ⟨file, text, pulls, hop, hstream⟩ := first_mem_stream_of_mem_history hg
  have hfirst : g.first = .ok (.passthrough line loc) := by
    unfold ItemGroup.event? at hgevent
    split at hgevent <;> simp_all
  rw [hfirst] at hstream
  obtain ⟨hline, htag, hread⟩ := mem_stream_passthrough hstream
  have hreturn := return_notMem_of_mem_lines h hop hline
  exact
    { newline_notMem := Text.notMem_of_mem_lines hline
      return_notLast := fun hlast => hreturn (List.mem_of_getLast? hlast)
      untagged := htag
      content_eq := Content.ofLine_of_ordinary hread }

/-- What is read of the compacted events of a run. -/
structure Reclassified (o : CompactOptions) (c : Catalogue) (events : List Event) : Prop where
  /-- The items are those that should be read of the events, in order: none is an error, none is a
  tagged block. -/
  content_eq : ∀ file, (Token.stream file (compact o c events)).map Item.content? =
    (o.header ++ events.flatMap (o.contents c)).map some
  /-- There is a symbol for every event that defines one. -/
  defined : ∀ command, .defined command ∈ events →
    ∃ s, c.symbols.find? command = some s ∧ s.command = command
  /-- The flags are those of the symbols that are kept, have no arguments and are to be marked. -/
  flags_eq : events.filterMap (o.eventFlag? c) =
    (c.symbols.values.filter o.isFlagged).map CompactOptions.flagText
  flags_nodup : (events.filterMap (o.eventFlag? c)).Nodup

/-- **Compacted output is read as the same content**: the lines that were passed through, and two
definitions of every symbol that is kept. -/
theorem reclassified_run (knownTags : List Text) (operations : List Operation)
    (o : CompactOptions) (hreturns : Returnless operations) (hcolor : o.ColorFits) :
    Reclassified o ((new knownTags).run operations) ((new knownTags).events operations) := by
  have hwell := (wellFormed_new knownTags).run operations
  have hcommands := filterMap_command?_events knownTags operations
  have hrewritable : ∀ s ∈ ((new knownTags).run operations).symbols.values, s.Rewritable :=
    fun s hs => rewritable_run hreturns hs
  have hpassed : ∀ line loc, .passthrough line loc ∈ (new knownTags).events operations →
      ReadsAs line (.passthrough line) :=
    fun line loc h => readsAs_of_passthrough hreturns h
  generalize (new knownTags).run operations = c at hwell hcommands hrewritable ⊢
  generalize (new knownTags).events operations = events at hcommands hpassed ⊢
  have hflags : events.filterMap (o.eventFlag? c) =
      (c.symbols.values.filter o.isFlagged).map CompactOptions.flagText := by
    calc events.filterMap (o.eventFlag? c)
        = ((events.filterMap Event.command?).filterMap c.symbols.find?).filterMap o.flag? := by
          rw [List.filterMap_filterMap, List.filterMap_filterMap]
          rfl
      _ = c.symbols.values.filterMap o.flag? := by
          rw [hcommands, OrderedMap.filterMap_find?_keys]
      _ = (c.symbols.values.filter o.isFlagged).map CompactOptions.flagText := by
          rw [← List.filterMap_eq_map, List.filterMap_filter]
          rfl
  refine ⟨fun file => ?_, fun command hevent => ?_, hflags, ?_⟩
  · have hevents : Writes (events.flatMap (o.eventText c)) (events.flatMap (o.contents c)) := by
      refine .flatMap fun event hevent => ?_
      cases event with
      | declared name => exact .nil
      | passthrough line loc => exact .line (hpassed line loc hevent)
      | defined command =>
        rw [CompactOptions.eventText, CompactOptions.contents]
        cases hs : c.symbols.find? command with
        | none => exact .nil
        | some s =>
          have hmem := (hwell.find?_eq_some_iff.1 hs).1
          simpa using CompactOptions.writes_symbolText hcolor (hrewritable s hmem)
    exact (o.writes_preamble.append hevents).stream file
  · have hkey : command ∈ c.symbols.keys := by
      rw [← hcommands]
      exact List.mem_filterMap.2 ⟨_, hevent, rfl⟩
    obtain ⟨s, hs⟩ := Option.isSome_iff_exists.1 (OrderedMap.find?_isSome_iff.2 hkey)
    exact ⟨s, hs, (hwell.find?_eq_some_iff.1 hs).2⟩
  · rw [hflags]
    have hnodup : c.symbols.values.Nodup := .of_map _ hwell.commands_nodup
    refine (hnodup.filter _).map_on fun s hs t ht heq => ?_
    have hs := List.mem_of_mem_filter hs
    have ht := List.mem_of_mem_filter ht
    have hcommand := CompactOptions.command_eq_of_flagText_eq (hrewritable s hs).isCommand
      (hrewritable t ht).isCommand heq
    exact List.inj_on_of_nodup_map hwell.commands_nodup hs ht hcommand

/-- A file with two symbols, one of them with an argument, and a comment that begins like a tag. -/
def pairRun : List Operation :=
  [.read "t.tex" ("text\n%:section:s : S\n\\newcommand\x7b\\R\x7d\x7b\\mathbb\x7bR\x7d\x7d%: reals\n" ++
    "%:todo:check\n\\newcommand\x7b\\pair\x7d[2]\x7b(#1,#2)\x7d\n") none]

/-- Options of every kind. -/
def pairOptions : CompactOptions := ⟨some "todo", some "red", true⟩

theorem reclassified_pairRun : Returnless pairRun ∧ pairOptions.ColorFits ∧
    Reclassified pairOptions ((new []).run pairRun) ((new []).events pairRun) := by
  have hreturns : Returnless pairRun := by
    intro file text pulls hop
    obtain ⟨-, rfl, -⟩ := Operation.read.inj (List.mem_singleton.1 hop)
    decide +kernel
  have hcolor : pairOptions.ColorFits := by
    intro color h
    obtain rfl := Option.some.inj (Option.mem_def.1 h)
    exact ⟨by decide, balanced_of_letters (List.all_eq_true.1 rfl)⟩
  exact ⟨hreturns, hcolor, reclassified_run [] pairRun pairOptions hreturns hcolor⟩

end Catalogue

end TexSymbols
