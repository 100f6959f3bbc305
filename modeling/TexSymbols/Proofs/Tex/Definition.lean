import TexSymbols.Proofs.Tex.Group
import TexSymbols.Tex.Definition

/-!
# What a definition line says

* `read_eq_other` — only lines that begin with a backslash are definitions.
* `IsCommand`, `Definition.Readable` — what a definition that was read is made of;
  `readable_of_read` — it is.
-/

namespace TexSymbols

variable {line : Text}

/-- A backslash and one or more letters. -/
def IsCommand (name : Text) : Prop :=
  ∃ letters, letters ≠ [] ∧ (∀ c ∈ letters, isLetter c = true) ∧ name = '\\' :: letters

theorem isCommand_of_all {letters : Text} (hne : letters ≠ [])
    (h : letters.all isLetter = true) : IsCommand ('\\' :: letters) :=
  ⟨letters, hne, List.all_eq_true.1 h, rfl⟩

namespace Definition

/-! ## Lines that are no definitions -/

theorem head?_of_mem_keywords : ∀ keyword ∈ keywords, keyword.head? = some '\\' := by decide

theorem trimStart_of_skipBlanks {r : Text} (h : skipBlanks line = '\\' :: r) :
    Text.trimStart line = '\\' :: r := by
  have hsplit : line = line.takeWhile isAsciiBlank ++ '\\' :: r := by
    rw [← h]
    exact (List.takeWhile_append_dropWhile ..).symm
  have hblank : ∀ c ∈ line.takeWhile isAsciiBlank, isBlank c = true := by
    intro c hc
    have := List.all_eq_true.1 (List.all_takeWhile (p := isAsciiBlank) (l := line)) c hc
    exact (Bool.and_eq_true_iff.1 this).1
  rw [hsplit, Text.trimStart, List.dropWhile_append_of_pos hblank]
  exact List.dropWhile_cons_of_neg (by decide)

/-- A definition line begins with a backslash. -/
theorem trimStart_of_head {h : Head} (hh : Head.read? line = some h) :
    ∃ r, Text.trimStart line = '\\' :: r := by
  obtain ⟨r, hr, -⟩ := Option.bind_eq_some_iff.1 hh
  obtain ⟨keyword, hmem, hk⟩ := List.exists_of_findSome?_eq_some hr
  have hline : skipBlanks line = keyword ++ r := Text.removePrefix?_eq_some.1 hk
  cases keyword with
  | nil => cases head?_of_mem_keywords _ hmem
  | cons c keyword =>
    obtain rfl := Option.some.inj (head?_of_mem_keywords _ hmem)
    exact ⟨keyword ++ r, trimStart_of_skipBlanks hline⟩

theorem read_eq_other (h : ∀ r, Text.trimStart line ≠ '\\' :: r) : read line = .other := by
  unfold read
  cases hh : Head.read? line with
  | none => rfl
  | some head =>
    obtain ⟨r, hr⟩ := trimStart_of_head hh
    exact absurd hr (h r)

theorem read_of_no_keyword
    (h : keywords.findSome? (Text.removePrefix? · (skipBlanks line)) = none) :
    read line = .other := by
  have hhead : Head.read? line = none := by rw [Head.read?, h]; rfl
  rw [read, hhead]

/-! ## What was read -/

/-- What a definition that was read from a line is made of. -/
structure Readable (line : Text) (d : Definition) : Prop where
  isCommand : IsCommand d.command
  nargs_lt : d.nargs < arityBound
  /-- The body stands in braces, and what follows it makes the comment. -/
  line_eq : ∃ before rest, line = before ++ '{' :: (d.body ++ '}' :: rest) ∧
    d.comment = commentOf rest
  /-- The body is split off whatever follows it. -/
  group_eq : ∀ u, braceGroup? ('{' :: (d.body ++ '}' :: u)) = some (d.body, u)

theorem skipBlanks_suffix (t : Text) : skipBlanks t <:+ t := List.dropWhile_suffix _

theorem removePrefix?_suffix {p t r : Text} (h : Text.removePrefix? p t = some r) : r <:+ t :=
  ⟨p, (Text.removePrefix?_eq_some.1 h).symm⟩

theorem bracketedDigits?_suffix {t digits r : Text} (h : bracketedDigits? t = some (digits, r)) :
    r <:+ t := by
  unfold bracketedDigits? at h
  split at h
  · rename_i tail
    split at h
    · rename_i d ds rest hdigits hrest
      cases h
      have hsuffix : ']' :: r <:+ tail := hrest ▸ List.dropWhile_suffix _
      exact ((List.suffix_cons ..).trans hsuffix).trans (List.suffix_cons ..)
    · cases h
  · cases h

/-- The command of a head is one, and the rest of the line is what is left of it. -/
theorem isCommand_of_head {h : Head} (hh : Head.read? line = some h) :
    IsCommand h.command ∧ h.rest <:+ line := by
  obtain ⟨afterKeyword, hkeyword, hh⟩ := Option.bind_eq_some_iff.1 hh
  obtain ⟨afterBrace, hbrace, hh⟩ := Option.bind_eq_some_iff.1 hh
  obtain ⟨afterName, hname, hh⟩ := Option.bind_eq_some_iff.1 hh
  obtain ⟨keyword, -, hkeyword⟩ := List.exists_of_findSome?_eq_some hkeyword
  have hstart : afterKeyword <:+ line := (removePrefix?_suffix hkeyword).trans (skipBlanks_suffix _)
  have hstar : afterBrace <:+ afterKeyword := by
    refine ((removePrefix?_suffix hbrace).trans (skipBlanks_suffix _)).trans ?_
    split
    · exact List.suffix_cons ..
    · exact List.suffix_rfl
  have hrest : afterName <:+ line :=
    (((removePrefix?_suffix hname).trans (List.dropWhile_suffix _)).trans hstar).trans hstart
  have hletters : ∀ c ∈ afterBrace.takeWhile isLetter, isLetter c = true :=
    List.all_eq_true.1 List.all_takeWhile
  split at hh
  · cases hh
  · rename_i hne
    have hcommand : IsCommand ('\\' :: afterBrace.takeWhile isLetter) :=
      ⟨_, by simpa using hne, hletters, rfl⟩
    split at hh
    · rename_i digits r hdigits
      cases hh
      have hsuffix := (bracketedDigits?_suffix hdigits).trans (skipBlanks_suffix _)
      exact ⟨hcommand, ((skipBlanks_suffix _).trans hsuffix).trans hrest⟩
    · cases hh
      exact ⟨hcommand, (skipBlanks_suffix _).trans hrest⟩

theorem readable_ofHead {h : Head} {nargs : Nat} {d : Definition} (hh : Head.read? line = some h)
    (hnargs : nargs < arityBound) (hd : ofHead h nargs = .definition d) : Readable line d := by
  obtain ⟨hcommand, before, hline⟩ := isCommand_of_head hh
  unfold ofHead at hd
  split at hd
  · rename_i body rest hgroup
    cases hd
    obtain ⟨hrest, hu⟩ := braceGroup?_eq_some hgroup
    exact ⟨hcommand, hnargs, ⟨before, rest, by rw [← hrest, hline], rfl⟩, hu⟩
  · cases hd

theorem readable_of_read {d : Definition} (h : read line = .definition d) : Readable line d := by
  unfold read at h
  split at h
  · cases h
  · rename_i head hhead
    split at h
    · exact readable_ofHead hhead (by decide) h
    · split at h
      · rename_i hvalue
        exact readable_ofHead hhead hvalue h
      · cases h

end Definition

end TexSymbols
