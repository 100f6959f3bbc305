import TexSymbols.Proofs.Tex.Definition
import TexSymbols.Proofs.Text.Utf8
import TexSymbols.Proofs.Yaml.Value
import TexSymbols.Usage.Yaml

/-!
# The tokens of a written usage map

* `Use.fields` — the fields of a use as scalars; `Use.tokens`, `usesTokens`, `entryTokens`,
  `UsageMap.tokens` — the tokens of a usage map and of its parts.
* `Lexes.use`, `Lexes.uses`, `Lexes.entryOf` — what is written of a use, of the uses of a command
  and of a command is lexed into these tokens.
* `UsageMap.lexes_body` — and so is the whole mapping.
-/

namespace TexSymbols

open Yaml (BeginsLine Form Lexes StartsToken formOf opened opening)

/-- The fields of a use: the name, and the form and the text of the value. -/
def Use.fields (u : Use) : List (Text × Form × Text) :=
  [("filename", formOf u.file, u.file), ("line", .plain, Decimal.digits u.line),
    ("last_label", u.label.elim (.plain, "null") fun t => (formOf t, t))]

/-- The tokens of a field. -/
def fieldTokens (field : Text × Form × Text) : List Yaml.Token :=
  [.key, .scalar .plain field.1, .value, .scalar field.2.1 field.2.2]

/-- The tokens of a use up to the end of its mapping. -/
def Use.tokens (u : Use) : List Yaml.Token := .blockMappingStart :: u.fields.flatMap fieldTokens

/-- The tokens of uses behind their dashes. -/
def usesTokens (uses : List Use) : List Yaml.Token :=
  uses.flatMap fun u => .entry :: (u.tokens ++ [.blockEnd])

/-- The tokens of a command and its uses.  Behind a question mark, the uses stand in a sequence that
has a beginning and an end of its own. -/
def entryTokens (command : Text) (uses : List Use) : List Yaml.Token :=
  .key :: .scalar .plain command :: .value ::
    if UsageMap.isSimpleKey command then usesTokens uses
    else .blockSequenceStart :: (usesTokens uses ++ [.blockEnd])

/-- The tokens of a usage map. -/
def UsageMap.tokens (m : UsageMap) : List Yaml.Token :=
  if m.entries.isEmpty then [.flowMappingStart, .flowMappingEnd, .streamEnd]
  else .blockMappingStart :: (m.entries.flatMap (fun e => entryTokens e.1 e.2) ++
    [.blockEnd, .streamEnd])

variable {columns : List Nat} {column k : Nat} {r t : Text} {ts : List Yaml.Token} {allowed : Bool}

/-! ## Uses -/

/-- The value of a field: text that ends its line and is one scalar. -/
def IsValue (column : Nat) (value : Text) (form : Form) (t : Text) : Prop :=
  ∀ ⦃columns : List Nat⦄ ⦃k c : Nat⦄ ⦃r : Text⦄ ⦃ts : List Yaml.Token⦄, column < c →
    BeginsLine k r → k ≤ column → Lexes true (column :: columns) k r ts →
    Lexes false (column :: columns) c (Yaml.endLine value ++ (Yaml.spaces k ++ r))
      (.scalar form t :: ts)

/-- A name that can be a key. -/
structure IsName (name : Text) : Prop where
  word : ∀ c ∈ name, Yaml.isWordSign c = true
  ne_nil : name ≠ []
  length_le : name.length ≤ Yaml.keyLimit

theorem isName_of_all {name : Text} (h : (name.all Yaml.isWordSign && !name.isEmpty &&
    decide (name.length ≤ Yaml.keyLimit)) = true) : IsName name := by
  simp only [Bool.and_eq_true, List.all_eq_true, Bool.not_eq_true', List.isEmpty_eq_false_iff,
    decide_eq_true_eq] at h
  exact ⟨h.1.1, h.1.2, h.2⟩

theorem endLine_field (name value r : Text) :
    Yaml.endLine (name ++ ": " ++ value) ++ r = name ++ ':' :: ' ' :: (Yaml.endLine value ++ r) := by
  rw [Yaml.endLine_append (by simp [Yaml.isBreak_space])]
  simp

theorem beginsLine_field {name : Text} (hname : IsName name) (value r : Text) :
    BeginsLine k (Yaml.endLine (name ++ ": " ++ value) ++ r) := by
  rw [endLine_field]
  refine ⟨?_, by simp⟩
  exact Yaml.startsToken_of_plainAllowed (Yaml.plainAllowed_of_word hname.word) hname.ne_nil _

/-- A field: its name, a colon and its value. -/
theorem Yaml.Lexes.field {name value : Text} {form : Form} (hname : IsName name) (hcolumn : column ≠ 0)
    (hcolumns : ∀ c ∈ columns.head?, c ≤ column) (hvalue : IsValue column value form t)
    (hr : BeginsLine k r) (hk : k ≤ column)
    (h : Lexes true (opened columns column) k r ts) :
    Lexes true columns column (Yaml.endLine (name ++ ": " ++ value) ++ (Yaml.spaces k ++ r))
      (opening .blockMappingStart columns column ++ (fieldTokens (name, form, t) ++ ts)) := by
  obtain ⟨outer, houter⟩ := Yaml.exists_opened columns column
  rw [endLine_field]
  rw [houter] at h
  have hrest : Lexes false (column :: outer) (column + name.length + 1 + 1)
      (Yaml.endLine value ++ (Yaml.spaces k ++ r)) (.scalar form t :: ts) :=
    hvalue (by omega) hr hk h
  exact .key (Yaml.plainAllowed_of_word hname.word) hname.ne_nil hname.length_le
    (fun h => absurd h hcolumn) rfl hcolumns (houter ▸ hrest.space)

/-- A string is written as a value. -/
theorem isValue_writeScalar (column : Nat) (t : Text) :
    IsValue column (Yaml.writeScalar (column + 2) t) (formOf t) t :=
  fun _ _ _ _ _ hc hr hk h => .scalar t hc hr hk h

/-- A word is written plain as a value. -/
theorem isValue_of_word (ht : ∀ c ∈ t, Yaml.isWordSign c = true) (hne : t ≠ []) :
    IsValue column t .plain t :=
  fun _ _ _ _ _ hc hr hk h => .plainLine (Yaml.plainAllowed_of_word ht) hne hc hr.starts hk h

theorem isWordSign_of_mem_digits {n : Nat} {c : Char} (h : c ∈ Decimal.digits n) :
    Yaml.isWordSign c = true := by
  simp [Yaml.isWordSign, Char.isAlphanum, Decimal.isDigit_of_mem_digits n c h]

/-- How a label is written, or that there is none. -/
def writeLabel (column : Nat) (label : Option Text) : Text :=
  (label.map (Yaml.writeScalar (column + 2))).getD "null"

theorem isValue_writeLabel (column : Nat) (label : Option Text) :
    IsValue column (writeLabel column label)
      (label.elim (Form.plain, ("null" : Text)) fun t => (formOf t, t)).1
      (label.elim (Form.plain, ("null" : Text)) fun t => (formOf t, t)).2 := by
  cases label with
  | none =>
    have hword : ∀ c ∈ ("null" : Text), Yaml.isWordSign c = true := List.all_eq_true.1 rfl
    exact isValue_of_word hword (List.cons_ne_nil _ _)
  | some t => exact isValue_writeScalar column t

/-- The text of a use, field by field. -/
theorem toYaml_append (u : Use) (column : Nat) (r : Text) : u.toYaml column ++ r =
    Yaml.endLine ("filename" ++ ": " ++ Yaml.writeScalar (column + 2) u.file) ++
      (Yaml.spaces column ++ (Yaml.endLine ("line" ++ ": " ++ Decimal.digits u.line) ++
        (Yaml.spaces column ++ (Yaml.endLine ("last_label" ++ ": " ++ writeLabel column u.label) ++
          r)))) := by
  have hspaces : (Yaml.spaces column).getLast?.any Yaml.isBreak = false := by
    cases hlast : (Yaml.spaces column).getLast? with
    | none => rfl
    | some c =>
      rw [List.eq_of_mem_replicate (List.mem_of_getLast? hlast)]
      rfl
  have hdigits : Yaml.endLine (Decimal.digits u.line) = Decimal.digits u.line ++ ['\n'] := by
    refine Yaml.endLine_of_not_break fun c hc => ?_
    exact (Yaml.isWordSign_spec (isWordSign_of_mem_digits (List.mem_of_getLast? hc))).2.1
  have hlabel : Yaml.endLine (Yaml.spaces column ++ "last_label: " ++ writeLabel column u.label) =
      Yaml.spaces column ++ Yaml.endLine ("last_label" ++ ": " ++ writeLabel column u.label) := by
    rw [List.append_assoc, Yaml.endLine_append hspaces]
    rfl
  have hline : Yaml.endLine ("line" ++ ": " ++ Decimal.digits u.line) =
      "line: " ++ Decimal.digits u.line ++ ['\n'] := by
    rw [Yaml.endLine_append (by simp [Yaml.isBreak_space]), hdigits]
    simp
  have hwritten : u.toYaml column =
      Yaml.endLine ("filename" ++ ": " ++ Yaml.writeScalar (column + 2) u.file) ++
        (Yaml.spaces column ++ "line: " ++ Decimal.digits u.line ++ ['\n']) ++
        Yaml.endLine (Yaml.spaces column ++ "last_label: " ++ writeLabel column u.label) := rfl
  rw [hwritten, hlabel, hline]
  simp only [List.append_assoc]

/-- **What is written of a use** is lexed into its tokens. -/
theorem Yaml.Lexes.use (u : Use) (hcolumns : ∀ c ∈ columns.head?, c < column) (hcolumn : column ≠ 0)
    (hr : BeginsLine k r) (hk : k ≤ column)
    (h : Lexes true (column :: columns) k r ts) :
    Lexes true columns column (u.toYaml column ++ (Yaml.spaces k ++ r)) (u.tokens ++ ts) := by
  have hnone : columns.head? ≠ some column := fun heq => Nat.lt_irrefl _ (hcolumns column heq)
  have hopened : opened columns column = column :: columns := if_neg hnone
  have hopening : opening .blockMappingStart columns column = [.blockMappingStart] := if_neg hnone
  have hfile : IsName "filename" := isName_of_all rfl
  have hline : IsName "line" := isName_of_all rfl
  have hlabel : IsName "last_label" := isName_of_all rfl
  have hself : ∀ c ∈ (column :: columns).head?, c ≤ column := by simp
  have hdigits : IsValue column (Decimal.digits u.line) .plain (Decimal.digits u.line) := isValue_of_word
    (fun c hc => isWordSign_of_mem_digits hc) (Decimal.digits_ne_nil u.line)
  have hlast := Lexes.field hlabel hcolumn hself (isValue_writeLabel column u.label) hr hk
    (by rwa [Yaml.opened_self])
  have hmiddle := Lexes.field hline hcolumn hself hdigits (beginsLine_field hlabel _ _)
    (Nat.le_refl column) (by rwa [Yaml.opened_self])
  have hfirst := Lexes.field hfile hcolumn (fun c hc => Nat.le_of_lt (hcolumns c hc))
    (isValue_writeScalar column u.file) (beginsLine_field hline _ _) (Nat.le_refl column)
    (by rwa [hopened])
  rw [toYaml_append]
  rw [hopening, Yaml.opening_self] at hfirst
  exact hfirst

/-! ## The uses of a command -/

/-- A use behind its dash. -/
theorem Yaml.Lexes.dashed (u : Use) (hcolumns : ∀ c ∈ columns.head?, c ≤ column) (hr : BeginsLine k r)
    (hk : k ≤ column) (h : Lexes true (opened columns column) k r ts) :
    Lexes true columns column ("- " ++ u.toYaml (column + 2) ++ (Yaml.spaces k ++ r))
      (opening .blockSequenceStart columns column ++
        .entry :: (u.tokens ++ .blockEnd :: ts)) := by
  obtain ⟨outer, houter⟩ := Yaml.exists_opened columns column
  have hlt : ∀ c ∈ (opened columns column).head?, c < column + 2 := by
    rw [houter]
    simp
  have hclosed := Lexes.close hr.starts (show k < column + 2 by omega) h
  exact .entry hcolumns (.space (.use u hlt (Nat.succ_ne_zero _) hr (by omega) hclosed))

theorem join_uses (column : Nat) (u : Use) (uses : List Use) : ∃ more,
    Text.join (Yaml.spaces column) (UsageMap.usesToYaml column (u :: uses)) = '-' :: ' ' :: more := by
  cases uses <;> exact ⟨_, rfl⟩

/-- **What is written of the uses of a command** is lexed into their tokens.  The sequence is the
one that stands at the column of the dashes, or it begins here. -/
theorem Yaml.Lexes.uses {uses : List Use} (hne : uses ≠ []) (hcolumns : ∀ c ∈ columns.head?, c ≤ column)
    (hr : StartsToken r) (h : Lexes true (opened columns column) 0 r ts) :
    Lexes true columns column
      (Text.join (Yaml.spaces column) (UsageMap.usesToYaml column uses) ++ r)
      (opening .blockSequenceStart columns column ++ (usesTokens uses ++ ts)) := by
  -- the next dash stands at the column of the first one, and the last use is followed by `r`
  induction uses generalizing columns with
  | nil => exact absurd rfl hne
  | cons u uses ih =>
    cases uses with
    | nil =>
      have huse := Lexes.dashed u hcolumns ⟨hr, fun _ => rfl⟩ (Nat.zero_le _) h
      simpa [UsageMap.usesToYaml, Text.join, usesTokens, Yaml.spaces] using huse
    | cons v uses =>
      obtain ⟨outer, houter⟩ := Yaml.exists_opened columns column
      have hself : ∀ c ∈ (opened columns column).head?, c ≤ column := by
        rw [houter]
        simp
      have hrest := ih (List.cons_ne_nil _ _) hself (by rwa [houter, Yaml.opened_self, ← houter])
      rw [houter, Yaml.opening_self, List.nil_append, ← houter] at hrest
      have hbegins : BeginsLine column (Text.join (Yaml.spaces column)
          (UsageMap.usesToYaml column (v :: uses)) ++ r) := by
        obtain ⟨more, hmore⟩ := join_uses column v uses
        rw [hmore]
        exact ⟨Yaml.startsToken_cons (by decide) _, by simp⟩
      have huse := Lexes.dashed u hcolumns hbegins (Nat.le_refl _) hrest
      have hjoin : Text.join (Yaml.spaces column) (UsageMap.usesToYaml column (u :: v :: uses)) ++ r =
          "- " ++ u.toYaml (column + 2) ++ (Yaml.spaces column ++ (Text.join (Yaml.spaces column)
            (UsageMap.usesToYaml column (v :: uses)) ++ r)) := by
        simp [UsageMap.usesToYaml, Text.join]
      have htokens : usesTokens (u :: v :: uses) ++ ts =
          .entry :: (u.tokens ++ .blockEnd :: (usesTokens (v :: uses) ++ ts)) := by
        simp [usesTokens]
      rw [hjoin, htokens]
      exact huse

/-! ## Commands -/

theorem isWordSign_of_isCommand {command : Text} (h : IsCommand command) :
    ∀ c ∈ command, Yaml.isWordSign c = true := by
  obtain ⟨letters, -, hletters, rfl⟩ := h
  intro c hc
  rcases List.mem_cons.1 hc with rfl | hc
  · rfl
  · have hletter : c.isAlpha = true := hletters c hc
    simp [Yaml.isWordSign, Char.isAlphanum, hletter]

/-- What begins with a backslash stands for nothing but itself. -/
theorem isImplicit_backslash (t : Text) : Yaml.isImplicit ('\\' :: t) = false := by
  have hdigit : Yaml.digitValue? 10 '\\' = none := rfl
  have hnumber : Yaml.basedNumeral? ('\\' :: t) = none := by
    have hdecimal : Yaml.basedNumeral? ('\\' :: t) = Yaml.numeral? 10 ('\\' :: t) := rfl
    simp [hdecimal, Yaml.numeral?, hdigit]
  have hinteger : Yaml.isInteger ('\\' :: t) = false := by
    simp [Yaml.isInteger, Text.removePrefix?, hnumber]
  have hfraction : Yaml.fraction? ('\\' :: t) = none := by
    simp [Yaml.fraction?]
  have hfloat : Yaml.isFloat ('\\' :: t) = false := by
    have hsigned : Yaml.unsigned ('\\' :: t) = '\\' :: t := rfl
    simp [Yaml.isFloat, hsigned, hfraction]
  have hled : Yaml.isZeroLed ('\\' :: t) = false := rfl
  simp [Yaml.isImplicit, Yaml.isNull, Yaml.isTruth, hinteger, hled, hfloat]

/-- A command is written plain. -/
theorem writeScalar_command {command : Text} (h : IsCommand command) (indent : Nat) :
    Yaml.writeScalar indent command = command := by
  have hword := isWordSign_of_isCommand h
  have hbreak : '\n' ∉ command := by
    intro hn
    cases (Yaml.isWordSign_spec (hword '\n' hn)).2.1
  obtain ⟨letters, -, -, rfl⟩ := h
  rw [Yaml.writeScalar, Yaml.styleOf, if_neg hbreak, Yaml.plainAllowed_of_word hword,
    isImplicit_backslash]
  rfl

theorem join_nil (ls : List Text) : Text.join [] ls = ls.flatten := by
  fun_induction Text.join [] ls with
  | case1 => rfl
  | case2 p => simp
  | case3 p q ps ih => rw [ih]; simp

/-- A command on its line, with the dashes of its uses below it. -/
theorem Yaml.Lexes.simpleEntry {command : Text} {uses : List Use} (hcommand : IsCommand command)
    (hsimple : UsageMap.isSimpleKey command = true) (huses : uses ≠ [])
    (hcolumns : ∀ c ∈ columns.head?, c ≤ 0) (hr : StartsToken r)
    (h : Lexes true (opened columns 0) 0 r ts) :
    Lexes true columns 0 (command ++ ':' :: '\n' :: ((UsageMap.usesToYaml 0 uses).flatten ++ r))
      (opening .blockMappingStart columns 0 ++ (entryTokens command uses ++ ts)) := by
  have hplain := Yaml.plainAllowed_of_word (isWordSign_of_isCommand hcommand)
  have hlength : command.length ≤ Yaml.keyLimit := by
    simp only [UsageMap.isSimpleKey, Bool.and_eq_true, decide_eq_true_eq] at hsimple
    have hbytes := Utf8.length_le_encode command
    exact Nat.le_trans hbytes (Nat.le_trans hsimple.2 (by decide))
  obtain ⟨letters, -, -, rfl⟩ := hcommand
  obtain ⟨outer, houter⟩ := Yaml.exists_opened columns 0
  rw [houter] at h
  have hself : ∀ c ∈ (0 :: outer).head?, c ≤ 0 := by simp
  have hbelow := Lexes.uses huses hself hr (by rwa [Yaml.opened_self])
  rw [Yaml.opening_self, Yaml.spaces, List.replicate_zero, join_nil] at hbelow
  rw [entryTokens, hsimple]
  exact .key hplain (List.cons_ne_nil _ _) hlength (fun _ => rfl) rfl hcolumns
    (houter ▸ hbelow.newline)

/-- A command behind a question mark, with its uses behind a colon. -/
theorem Yaml.Lexes.explicitEntry {command : Text} {uses : List Use} (hcommand : IsCommand command)
    (hsimple : UsageMap.isSimpleKey command = false) (huses : uses ≠ [])
    (hcolumns : ∀ c ∈ columns.head?, c ≤ 0) (hr : StartsToken r)
    (h : Lexes true (opened columns 0) 0 r ts) :
    Lexes true columns 0 ('?' :: ' ' :: (command ++ '\n' :: ':' :: ' ' ::
        (Text.join (Yaml.spaces 2) (UsageMap.usesToYaml 2 uses) ++ r)))
      (opening .blockMappingStart columns 0 ++ (entryTokens command uses ++ ts)) := by
  have hplain := Yaml.plainAllowed_of_word (isWordSign_of_isCommand hcommand)
  obtain ⟨letters, -, -, rfl⟩ := hcommand
  obtain ⟨outer, houter⟩ := Yaml.exists_opened columns 0
  rw [houter] at h
  have hopened : opened (0 :: outer) 2 = 2 :: 0 :: outer := rfl
  have hopening : opening .blockSequenceStart (0 :: outer) 2 = [.blockSequenceStart] := rfl
  have hleft : ∀ c ∈ (0 :: outer).head?, c ≤ 2 := by simp
  have hvalue := Lexes.uses huses hleft hr (by rw [hopened]; exact .close hr Nat.two_pos h)
  have hkey : Lexes true (0 :: outer) 2 _ _ := .plain (k := 0) hplain (List.cons_ne_nil _ _)
    Nat.two_pos (Yaml.startsToken_cons (by decide) _) (Nat.le_refl 0) (.colon (.space hvalue))
  have htokens : entryTokens ('\\' :: letters) uses ++ ts = .key :: .scalar .plain ('\\' :: letters) ::
      .value :: ([.blockSequenceStart] ++ (usesTokens uses ++ .blockEnd :: ts)) := by
    simp [entryTokens, hsimple]
  rw [hopening, ← houter] at hkey
  rw [htokens]
  exact .question hcolumns (.space hkey)

/-- **What is written of a command and its uses** is lexed into their tokens.  The mapping is the one
that stands at the beginning of lines, or it begins here. -/
theorem Yaml.Lexes.entryOf {command : Text} {uses : List Use} (hcommand : IsCommand command)
    (huses : uses ≠ []) (hcolumns : ∀ c ∈ columns.head?, c ≤ 0) (hr : StartsToken r)
    (h : Lexes true (opened columns 0) 0 r ts) :
    Lexes true columns 0 (UsageMap.entryToYaml command uses ++ r)
      (opening .blockMappingStart columns 0 ++ (entryTokens command uses ++ ts)) := by
  have hempty : uses.isEmpty = false := List.isEmpty_eq_false_iff.2 huses
  unfold UsageMap.entryToYaml
  rw [writeScalar_command hcommand, hempty]
  cases hsimple : UsageMap.isSimpleKey command with
  | true =>
    have hentry := simpleEntry hcommand hsimple huses hcolumns hr h
    simpa using hentry
  | false =>
    have hlast : ∀ c ∈ command.getLast?, Yaml.isBreak c = false := fun c hc =>
      (Yaml.isWordSign_spec (isWordSign_of_isCommand hcommand c (List.mem_of_getLast? hc))).2.1
    have hend : Yaml.endLine ("? " ++ command) = "? " ++ command ++ ['\n'] := by
      rw [Yaml.endLine_append (by simp [Yaml.isBreak_space]), Yaml.endLine_of_not_break hlast,
        List.append_assoc]
    have hspaces : Yaml.spaces 2 = ("  " : Text) := rfl
    have hentry := explicitEntry hcommand hsimple huses hcolumns hr h
    rw [hspaces] at hentry
    simp only [Bool.false_eq_true, if_false, hend]
    simpa using hentry

/-! ## The mapping -/

/-- A command is written behind a backslash or a question mark. -/
theorem entryToYaml_cons {command : Text} (hcommand : IsCommand command) (uses : List Use) :
    ∃ c more, UsageMap.entryToYaml command uses = c :: more ∧ (c = '\\' ∨ c = '?') := by
  have hend : ∃ more, Yaml.endLine ("? " ++ command) = '?' :: more := Yaml.endLine_cons _ _
  obtain ⟨more, hmore⟩ := hend
  unfold UsageMap.entryToYaml
  rw [writeScalar_command hcommand]
  obtain ⟨letters, -, -, rfl⟩ := hcommand
  split <;> dsimp only <;> split
  · exact ⟨_, _, rfl, .inl rfl⟩
  · exact ⟨_, _, rfl, .inl rfl⟩
  · exact ⟨_, _, by rw [hmore]; rfl, .inr rfl⟩
  · exact ⟨_, _, by rw [hmore]; rfl, .inr rfl⟩

theorem startsToken_entry {command : Text} (hcommand : IsCommand command) (uses : List Use)
    (r : Text) : StartsToken (UsageMap.entryToYaml command uses ++ r) := by
  obtain ⟨c, more, hwritten, hc⟩ := entryToYaml_cons hcommand uses
  rw [hwritten]
  rcases hc with rfl | rfl
  · exact Yaml.startsToken_cons (by decide) _
  · exact Yaml.startsToken_cons (by decide) _

/-- Uses that were found: those of commands, each of which has one, on lines whose numbers have 64
bits. -/
structure UsageMap.IsFound (m : UsageMap) : Prop where
  isCommand : ∀ e ∈ m.entries, IsCommand e.1
  ne_nil : ∀ e ∈ m.entries, e.2 ≠ []
  line_lt : ∀ e ∈ m.entries, ∀ u ∈ e.2, u.line < Nat.pow 2 64

/-- What is written of some commands, up to the end of the text. -/
theorem lexes_entries {entries : List (Text × List Use)} (hcommand : ∀ e ∈ entries, IsCommand e.1)
    (huses : ∀ e ∈ entries, e.2 ≠ []) :
    Lexes true [0] 0 (entries.flatMap fun e => UsageMap.entryToYaml e.1 e.2)
        ((entries.flatMap fun e => entryTokens e.1 e.2) ++ [.blockEnd, .streamEnd]) ∧
      StartsToken (entries.flatMap fun e => UsageMap.entryToYaml e.1 e.2) := by
  induction entries with
  | nil => exact ⟨.nil (by simp), by simp [Yaml.StartsToken]⟩
  | cons e entries ih =>
    rw [List.forall_mem_cons] at hcommand huses
    obtain ⟨hrest, hstarts⟩ := ih hcommand.2 huses.2
    refine ⟨?_, startsToken_entry hcommand.1 e.2 _⟩
    rw [List.flatMap_cons, List.flatMap_cons, List.append_assoc]
    exact .entryOf hcommand.1 huses.1 (by simp) hstarts hrest

/-- **What is written of a usage map** is lexed into its tokens. -/
theorem UsageMap.lexes_body {m : UsageMap} (hm : m.IsFound) : Lexes true [] 0 m.bodyToYaml m.tokens := by
  unfold UsageMap.bodyToYaml UsageMap.tokens
  cases hentries : m.entries with
  | nil => exact .braces
  | cons e entries =>
    have hcommand := hm.isCommand
    have huses := hm.ne_nil
    rw [hentries, List.forall_mem_cons] at hcommand huses
    obtain ⟨hrest, hstarts⟩ := lexes_entries hcommand.2 huses.2
    have hfirst : ∀ c ∈ ([] : List Nat).head?, c ≤ 0 := by simp
    have hopening : opening .blockMappingStart [] 0 = [.blockMappingStart] := rfl
    have hentry := Lexes.entryOf hcommand.1 huses.1 hfirst hstarts hrest
    simpa [hopening] using hentry

end TexSymbols
