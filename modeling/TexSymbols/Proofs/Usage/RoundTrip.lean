import TexSymbols.Program.Run
import TexSymbols.Proofs.Text.Lines
import TexSymbols.Proofs.Usage.Nodes
import TexSymbols.Proofs.Usage.Readable

/-!
# Usage maps survive YAML

* `UsageMap.ofText?_toYaml`, `UsageMap.ofYaml?_toYaml` — a written usage map is lexed into its
  tokens, and read back.
* `UsageMap.length_header` — two lines in front of the mapping begin with a number sign.
* `IsFound.record`, `UsageMap.isFound_usesIn`, `UsageMap.isFound_usesInAll` — what the scan of
  documents finds can be written: an invariant of adding uses, of a document and of several.
* `UsageMap.Survives`, `survives_usesInAll` — the uses in any documents are written as a text that
  begins with two comment lines and from which the same uses are read in the same order.
-/

namespace TexSymbols

open Yaml (Lexes)

variable {m : UsageMap}

/-! ## Reading what was written -/

/-- What the first line says behind its number sign. -/
def headerText (files : List Text) : Text :=
  " YAML dump of symbols found in files " ++ Text.quotedList files

theorem toYaml_eq (m : UsageMap) (files : List Text) :
    m.toYaml files = '#' :: (headerText files ++ '\n' :: '#' :: ([' '] ++ '\n' :: m.bodyToYaml)) := by
  unfold UsageMap.toYaml headerText
  generalize Text.quotedList files = quoted
  generalize m.bodyToYaml = body
  simp

theorem isBreak_of_mem_headerText {files : List Text} :
    ∀ c ∈ headerText files, Yaml.isBreak c = false := by
  intro c hc
  have hwords : (" YAML dump of symbols found in files " : Text).all (!Yaml.isBreak ·) = true := rfl
  rcases List.mem_append.1 hc with hc | hc
  · simpa using List.all_eq_true.1 hwords c hc
  · exact isBreak_of_isVisible (Text.isVisible_of_mem_quotedList hc)

/-- **A written usage map is lexed into its tokens.** -/
theorem UsageMap.ofText?_toYaml (hm : m.IsFound) (files : List Text) :
    Yaml.Token.ofText? (m.toYaml files) = some m.tokens := by
  have hspace : ∀ c ∈ [' '], Yaml.isBreak c = false := by simp [Yaml.isBreak_space]
  have hlexes : Lexes true [] 0 (m.toYaml files) m.tokens := by
    rw [toYaml_eq]
    exact .comment isBreak_of_mem_headerText (.comment hspace (UsageMap.lexes_body hm))
  exact hlexes 0 #[] _ (Nat.lt_succ_self _)

/-- **A written usage map is read back.** -/
theorem UsageMap.ofYaml?_toYaml (hm : m.IsFound) (files : List Text) :
    UsageMap.ofYaml? (m.toYaml files) = some m := by
  have hprintable := UsageMap.printable_toYaml hm.isCommand files
  have hread : Yaml.read? (m.toYaml files) =
      some ⟨m.node, Yaml.anchoredNodes .empty m.events, (m.events : List (Yaml.Event Nat)).length⟩ := by
    rw [Yaml.read?, isReadable_of_printable hprintable, normaliseBreaks_of_printable hprintable,
      UsageMap.ofText?_toYaml hm files]
    simp only [Bool.not_true, Bool.false_eq_true, if_false, Option.bind_eq_bind, Option.bind_some,
      ofTokens?_tokens hm.ne_nil, (numbers_events m).number?, (builds_node m).ofEvents?]
  have hentries := read_node ⟨m.node, Yaml.anchoredNodes .empty m.events,
    (m.events : List (Yaml.Event Nat)).length⟩ hm.line_lt
  rw [UsageMap.ofYaml?, hread]
  simp only [Option.bind_eq_bind, Option.bind_some]
  rw [hentries]
  exact congrArg some (OrderedMap.ofList_entries m)

theorem bodyToYaml_cons (hm : m.IsFound) :
    ∃ c more, m.bodyToYaml = c :: more ∧ (c = '\\' ∨ c = '?' ∨ c = '\x7b') := by
  unfold UsageMap.bodyToYaml
  cases hentries : m.entries with
  | nil => exact ⟨_, _, rfl, .inr (.inr rfl)⟩
  | cons e entries =>
    have hcommand : IsCommand e.1 := hm.isCommand e (by simp [hentries])
    obtain ⟨c, more, hwritten, hc⟩ := entryToYaml_cons hcommand e.2
    refine ⟨c, _, by rw [List.isEmpty_cons, List.flatMap_cons, hwritten]; rfl, ?_⟩
    exact hc.imp_right .inl

/-- A line that begins with a number sign and holds no breaks. -/
theorem lines_comment {comment : Text} (h : ∀ c ∈ comment, Yaml.isBreak c = false) (r : Text) :
    Text.lines ('#' :: (comment ++ '\n' :: r)) = ('#' :: comment) :: Text.lines r := by
  have hall : ∀ c ∈ '#' :: comment, Yaml.isBreak c = false := List.forall_mem_cons.2 ⟨rfl, h⟩
  have hfeed : '\n' ∉ '#' :: comment := fun hmem => by cases hall '\n' hmem
  have hend : ('#' :: comment).getLast? ≠ some '\r' := fun hlast => by
    cases hall '\r' (List.mem_of_getLast? hlast)
  exact Text.lines_append hfeed hend r

/-- **Two lines in front of the mapping begin with a number sign.** -/
theorem UsageMap.length_header (hm : m.IsFound) (files : List Text) :
    ((Text.lines (m.toYaml files)).takeWhile (·.head? = some '#')).length = 2 := by
  obtain ⟨c, more, hbody, hc⟩ := bodyToYaml_cons hm
  have hsign : c ≠ '#' ∧ c ≠ '\n' ∧ c ≠ '\r' := by
    rcases hc with rfl | rfl | rfl <;> decide
  obtain ⟨hsign, hfeed, hreturn⟩ := hsign
  obtain ⟨l, ls, hlines⟩ := Text.exists_lines_cons hfeed hreturn more
  have hspace : ∀ c ∈ [' '], Yaml.isBreak c = false := by simp [Yaml.isBreak_space]
  rw [toYaml_eq, lines_comment isBreak_of_mem_headerText, lines_comment hspace, hbody, hlines]
  simp [hsign]

/-! ## What a scan finds -/

namespace UsageMap.IsFound

theorem empty : IsFound .empty := ⟨by simp, by simp, by simp⟩

/-- Adding uses of a command. -/
theorem record (hm : m.IsFound) {command : Text} {uses : List Use} (hcommand : IsCommand command)
    (hne : uses ≠ []) (hlines : ∀ u ∈ uses, u.line < Nat.pow 2 64) :
    (m.record command uses).IsFound := by
  have hold : ∀ u ∈ (m.find? command).getD [], u.line < Nat.pow 2 64 := by
    cases hfind : m.find? command with
    | none => simp
    | some old => exact hm.line_lt (command, old) (OrderedMap.find?_eq_some_iff.1 hfind)
  refine ⟨fun e he => ?_, fun e he => ?_, fun e he => ?_⟩
  · rcases OrderedMap.eq_or_mem_of_mem_insert he with rfl | he
    · exact hcommand
    · exact hm.isCommand e he
  · rcases OrderedMap.eq_or_mem_of_mem_insert he with rfl | he
    · simp [hne]
    · exact hm.ne_nil e he
  · rcases OrderedMap.eq_or_mem_of_mem_insert he with rfl | he
    · intro u hu
      exact (List.mem_append.1 hu).elim (hold u) (hlines u)
    · exact hm.line_lt e he

/-- Adding the uses of another map. -/
theorem merge {other : UsageMap} (hm : m.IsFound) (hother : other.IsFound) :
    (m.merge other).IsFound :=
  List.foldlRecOn other.entries _ hm fun _ hm e he =>
    hm.record (hother.isCommand e he) (hother.ne_nil e he) (hother.line_lt e he)

end UsageMap.IsFound

theorem isCommand_of_mem_commands {t command : Text} (h : command ∈ commands t) :
    IsCommand command := by
  fun_induction commands t with
  | case1 c r hc ih =>
    rcases List.mem_cons.1 h with rfl | h
    · refine ⟨c :: r.takeWhile isLetter, List.cons_ne_nil _ _, ?_, rfl⟩
      exact List.forall_mem_cons.2 ⟨hc, fun d hd => List.mem_takeWhile_imp hd⟩
    · exact ih h
  | case2 c r hc ih => exact ih h
  | case3 c r hc ih => exact ih h
  | case4 => cases h

/-- A command of a line. -/
theorem UseScan.isFound_command {s : UseScan} {file command : Text} {line : Nat}
    (hs : s.uses.IsFound) (hcommand : IsCommand command) (hline : line < Nat.pow 2 64) :
    (s.command file line command).uses.IsFound := by
  unfold UseScan.command
  dsimp only
  split
  · exact hs
  · exact hs.record hcommand (List.cons_ne_nil _ _) (by simpa using hline)

/-- A line. -/
theorem UseScan.isFound_line {s : UseScan} {file : Text} {numbered : Text × Nat}
    (hs : s.uses.IsFound) (hline : numbered.2 < Nat.pow 2 64) :
    (s.line file numbered).uses.IsFound :=
  List.foldlRecOn (motive := fun s : UseScan => s.uses.IsFound) (commands _) _ hs fun _ hs _ hc =>
    isFound_command hs (isCommand_of_mem_commands hc) hline

/-- **What is found in a document** can be written. -/
theorem UsageMap.isFound_usesIn (file : Text) {text : Text}
    (htext : (Text.lines text).length < Nat.pow 2 64) : (usesIn file text).IsFound := by
  refine List.foldlRecOn (motive := fun s : UseScan => s.uses.IsFound) _ _ .empty ?_
  intro s hs numbered hnumbered
  -- lines are counted from one up to their number
  have hbound := (List.mem_zipIdx hnumbered).2.1
  exact UseScan.isFound_line hs (by omega)

/-- **What is found in several documents** can be written. -/
theorem UsageMap.isFound_usesInAll {documents : List (Text × Text)}
    (hdocuments : ∀ d ∈ documents, (Text.lines d.2).length < Nat.pow 2 64) :
    (usesInAll documents).IsFound :=
  List.foldlRecOn documents _ .empty fun _ hm d hd =>
    hm.merge (isFound_usesIn d.1 (hdocuments d hd))

/-! ## The round trip -/

/-- A usage map that survives being written for some files. -/
structure UsageMap.Survives (m : UsageMap) (files : List Text) : Prop where
  /-- The text begins with exactly two comment lines. -/
  header : ((Text.lines (m.toYaml files)).takeWhile (·.head? = some '#')).length = 2
  /-- The text is read as the same map. -/
  read : UsageMap.ofYaml? (m.toYaml files) = some m
  /-- So is a file that holds the text, wherever it is. -/
  file : ∀ (tree : FileTree) (path : Path),
    tree.read? path = some (Utf8.encode (m.toYaml files)) → Environment.usages tree path = pure m

/-- A usage map is read from a file that holds what was written. -/
theorem usages_of_read? {tree : FileTree} {path : Path} {files : List Text} (hm : m.IsFound)
    (hfile : tree.read? path = some (Utf8.encode (m.toYaml files))) :
    Environment.usages tree path = pure m := by
  have htext : tree.text path = pure (m.toYaml files) := by
    rw [FileTree.text, FileTree.readText?, hfile, Option.bind_some, Utf8.decode?_encode]
  rw [Environment.usages, htext, pure_bind, UsageMap.ofYaml?_toYaml hm]

/-- **The uses that are found in any documents survive being written**, whatever the documents and
the files are called.  The reader accepts line numbers of at most 64 bits, so no document may have
more lines than these can count. -/
theorem survives_usesInAll {documents : List (Text × Text)}
    (hdocuments : ∀ d ∈ documents, (Text.lines d.2).length < Nat.pow 2 64) (files : List Text) :
    (usesInAll documents).Survives files := by
  have hm := UsageMap.isFound_usesInAll hdocuments
  exact ⟨UsageMap.length_header hm files, UsageMap.ofYaml?_toYaml hm files,
    fun _ _ => usages_of_read? hm⟩

/-- A document whose name has a line feed and a quotation mark, and whose labels look like no label
and like a comment. -/
def oddDocuments : List (Text × Text) :=
  [("a\n\".tex", "\\label\x7bnull\x7d\n\\x \\label\x7b1: #\x7d")]

theorem survives_oddDocuments : (∀ d ∈ oddDocuments, (Text.lines d.2).length < Nat.pow 2 64) ∧
    (usesInAll oddDocuments).find? "\\x" = some [⟨"a\n\".tex", 2, some "1: #"⟩] ∧
    (usesInAll oddDocuments).Survives (oddDocuments.map Prod.fst) := by
  have hlines : ∀ d ∈ oddDocuments, (Text.lines d.2).length < Nat.pow 2 64 := by decide +kernel
  exact ⟨hlines, by decide +kernel, survives_usesInAll hlines _⟩

end TexSymbols
