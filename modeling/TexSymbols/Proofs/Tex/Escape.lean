import TexSymbols.Proofs.Tex.Group
import TexSymbols.Tex.Command
import TexSymbols.Tex.Comment
import TexSymbols.Tex.Style

/-!
# Text typeset literally

* `Tex.WrittenAs` — the written form of a character: the four ways in which `escape` writes one.
* `Tex.unescape` — reads the written form back; `unescape_escape` — what was written is found again.
* `WrittenAs.balanced`, `WrittenAs.stripCommentFrom_eq`, `WrittenAs.commands_eq` — how the scanners
  of this library go through one form; `balanced_escape`, `stripCommentFrom_escape`,
  `commands_escape` — and through a whole text: it closes every brace that it opens, starts no
  comment, and its commands are those that stand for backslashes.
* `Tex.EscapedText`, `escapedText` — all of this, for every text.
-/

namespace TexSymbols

namespace Tex

/-! ## Written forms -/

/-- The special characters that a backslash makes ordinary ones. -/
def specials : List Char := ['{', '}', '_', '#', '$', '%', '&']

/-- The characters that a backslash makes accents, so that they stand over an empty group. -/
def accents : List Char := ['^', '~']

/-- The form that a character is written in. -/
inductive WrittenAs : Char → Text → Prop
  | backslash : WrittenAs '\\' "\\textbackslash\x7b\x7d"
  | special {c : Char} : c ∈ specials → WrittenAs c ['\\', c]
  | accent {c : Char} : c ∈ accents → WrittenAs c ['\\', c, '{', '}']
  | plain {c : Char} : c ∉ '\\' :: (specials ++ accents) → WrittenAs c [c]

variable {c : Char} {w : Text}

theorem writtenAs_escapeChar (c : Char) : WrittenAs c (escapeChar c) := by
  unfold escapeChar
  split
  · rename_i h
    exact h ▸ .backslash
  · rename_i hbackslash
    split
    · rename_i h
      exact .special h
    · rename_i hspecial
      split
      · rename_i h
        exact h ▸ .accent (by decide)
      · split
        · rename_i h
          exact h ▸ .accent (by decide)
        · refine .plain ?_
          simp_all [specials, accents]

/-- A special character is no backslash, begins no command and is no accent. -/
theorem of_mem_specials : ∀ c ∈ specials, c ≠ '\\' ∧ isLetter c = false ∧ c ∉ accents := by
  simp [specials, accents, isLetter]

theorem isLetter_accent : ∀ c ∈ accents, isLetter c = false := by simp [accents, isLetter]

/-- A character that is written as it is means nothing to the scanners. -/
theorem of_plain (h : c ∉ '\\' :: (specials ++ accents)) :
    c ≠ '\\' ∧ c ≠ '{' ∧ c ≠ '}' ∧ c ≠ '%' := by
  refine ⟨?_, ?_, ?_, ?_⟩ <;>
    · rintro rfl
      exact h (by decide)

theorem escape_cons (c : Char) (t : Text) : escape (c :: t) = escapeChar c ++ escape t := rfl

/-! ## Reading back -/

/-- The text that a written form stands for, without its first `skip` characters.  Behind its first
letter the command for a backslash goes on for 14 characters, and an accent has two braces. -/
def unescapeFrom : Nat → Text → Text
  | _, [] => []
  | skip + 1, _ :: r => unescapeFrom skip r
  | 0, '\\' :: 't' :: r => '\\' :: unescapeFrom 14 r
  | 0, '\\' :: c :: r => c :: unescapeFrom (if c ∈ accents then 2 else 0) r
  | 0, c :: r => c :: unescapeFrom 0 r

/-- The text that a written form stands for. -/
def unescape (t : Text) : Text := unescapeFrom 0 t

theorem unescapeFrom_append (skipped r : Text) :
    unescapeFrom skipped.length (skipped ++ r) = unescapeFrom 0 r := by
  induction skipped with
  | nil => rfl
  | cons c skipped ih => exact ih

theorem unescapeFrom_pair (hc : isLetter c = false) (r : Text) :
    unescapeFrom 0 ('\\' :: c :: r) = c :: unescapeFrom (if c ∈ accents then 2 else 0) r := by
  rw [unescapeFrom]
  rintro rfl
  cases hc

/-- The form of a character is read back as this character. -/
theorem WrittenAs.unescapeFrom_eq (h : WrittenAs c w) (r : Text) :
    unescapeFrom 0 (w ++ r) = c :: unescapeFrom 0 r := by
  cases h with
  | backslash => exact congrArg ('\\' :: ·) (unescapeFrom_append "extbackslash\x7b\x7d" r)
  | special hc =>
    obtain ⟨-, hletter, haccent⟩ := of_mem_specials c hc
    show unescapeFrom 0 ('\\' :: c :: r) = _
    rw [unescapeFrom_pair hletter, if_neg haccent]
  | accent hc =>
    show unescapeFrom 0 ('\\' :: c :: ("\x7b\x7d" ++ r)) = _
    rw [unescapeFrom_pair (isLetter_accent c hc), if_pos hc]
    exact congrArg (c :: ·) (unescapeFrom_append "\x7b\x7d" r)
  | plain hc =>
    have hbackslash := (of_plain hc).1
    rw [List.singleton_append, unescapeFrom]
    · exact fun _ h => absurd h hbackslash
    · exact fun _ _ h => absurd h hbackslash

/-- **What was written is read back.** -/
theorem unescape_escape (t : Text) : unescape (escape t) = t := by
  induction t with
  | nil => rfl
  | cons c t ih =>
    rw [unescape, escape_cons, (writtenAs_escapeChar c).unescapeFrom_eq]
    exact congrArg (c :: ·) ih

/-! ## Braces, comments, commands -/

theorem WrittenAs.balanced (h : WrittenAs c w) : Balanced w := by
  cases h with
  | backslash => exact balanced_iff.2 (by decide)
  | special => exact .escaped c .nil
  | accent => exact .escaped c (.group .nil .nil)
  | plain hc =>
    obtain ⟨hbackslash, hopen, hclose, -⟩ := of_plain hc
    exact .plain hbackslash hopen hclose .nil

/-- **Every brace that is opened is closed.** -/
theorem balanced_escape (t : Text) : Balanced (escape t) := by
  induction t with
  | nil => exact .nil
  | cons c t ih => exact (writtenAs_escapeChar c).balanced.append ih

/-- The form of a character is kept, and what follows it is read as if it stood alone. -/
theorem WrittenAs.stripCommentFrom_eq (h : WrittenAs c w) (r : Text) :
    stripCommentFrom false (w ++ r) = w ++ stripCommentFrom false r := by
  cases h with
  | backslash => rfl
  | special hc =>
    have hbackslash := (of_mem_specials c hc).1
    have hescaped : stripCommentFrom true (c :: r) = c :: stripCommentFrom false r := by
      by_cases hpercent : c = '%'
      · rw [hpercent]
        rfl
      · rw [stripCommentFrom] <;> assumption
    exact congrArg ('\\' :: ·) hescaped
  | accent hc =>
    have hforms : ∀ c ∈ accents, stripCommentFrom true (c :: '{' :: '}' :: r) =
        c :: '{' :: '}' :: stripCommentFrom false r := by
      simp [accents, stripCommentFrom]
    exact congrArg ('\\' :: ·) (hforms c hc)
  | plain hc =>
    obtain ⟨hbackslash, -, -, hpercent⟩ := of_plain hc
    rw [List.singleton_append, stripCommentFrom]
    · rfl
    · exact hbackslash
    · exact hpercent

/-- **No comment starts**, neither within what was written nor behind it because of it. -/
theorem stripCommentFrom_escape (t r : Text) :
    stripCommentFrom false (escape t ++ r) = escape t ++ stripCommentFrom false r := by
  induction t with
  | nil => rfl
  | cons c t ih =>
    rw [escape_cons, List.append_assoc, (writtenAs_escapeChar c).stripCommentFrom_eq, ih,
      List.append_assoc]

/-- The command for a backslash. -/
def backslashCommand : Text := "\\textbackslash"

/-- Only the form of a backslash has a command, and it ends there. -/
theorem WrittenAs.commands_eq (h : WrittenAs c w) (r : Text) :
    commands (w ++ r) = (if c = '\\' then [backslashCommand] else []) ++ commands r := by
  cases h with
  | backslash => rfl
  | special hc =>
    obtain ⟨hbackslash, hletter, -⟩ := of_mem_specials c hc
    show commands ('\\' :: c :: r) = _
    rw [commands, hletter, if_neg hbackslash]
    rfl
  | accent hc =>
    have hbackslash : c ≠ '\\' := by rintro rfl; exact absurd hc (by decide)
    show commands ('\\' :: c :: '{' :: '}' :: r) = _
    rw [commands, isLetter_accent c hc, if_neg hbackslash]
    rfl
  | plain hc =>
    have hbackslash := (of_plain hc).1
    rw [if_neg hbackslash]
    exact commands_cons_of_ne hbackslash r

/-- **The commands are those for the backslashes**, one for each. -/
theorem commands_escape (t r : Text) :
    commands (escape t ++ r) = List.replicate (t.count '\\') backslashCommand ++ commands r := by
  induction t with
  | nil => rfl
  | cons c t ih =>
    rw [escape_cons, List.append_assoc, (writtenAs_escapeChar c).commands_eq, ih,
      List.count_cons]
    by_cases hc : c = '\\'
    · simp [hc, List.replicate_succ]
    · simp [hc]

/-! ## All at once -/

/-- What a text keeps and what it cannot do when it is typeset literally. -/
structure EscapedText (t : Text) : Prop where
  recovered : unescape (escape t) = t
  determined : ∀ u, escape u = escape t → u = t
  /-- In braces it is split off whole, whatever follows. -/
  group_eq : ∀ r, braceGroup? ('{' :: (escape t ++ '}' :: r)) = some (escape t, r)
  stripComment_eq : stripComment (escape t) = escape t
  commands_eq : commands (escape t) = List.replicate (t.count '\\') backslashCommand

/-- **Text typeset literally stays in its group and can be read back.** -/
theorem escapedText (t : Text) : EscapedText t where
  recovered := unescape_escape t
  determined u hu := by rw [← unescape_escape u, hu, unescape_escape]
  group_eq r := braceGroup?_of_balanced (balanced_escape t) r
  stripComment_eq := by
    have hstrip := stripCommentFrom_escape t []
    rwa [List.append_nil, stripCommentFrom, List.append_nil] at hstrip
  commands_eq := by
    have hcommands := commands_escape t []
    rwa [List.append_nil, commands, List.append_nil] at hcommands

/-- Source text shown as it is typed. -/
example : escape "\\x_1^\x7b2\x7d" =
    "\\textbackslash\x7b\x7dx\\_1\\^\x7b\x7d\\\x7b2\\\x7d".toList := by decide

end Tex

end TexSymbols
