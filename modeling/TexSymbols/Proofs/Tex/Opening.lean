import TexSymbols.Proofs.Tex.Definition
import TexSymbols.Proofs.Text.Run

/-!
# What stands before the body of a definition

* `Definition.Opening` — the parts of a definition line before its body; `Opening.Valid` — what
  they may be, `Opening.text` — the text that they make.
* `Head.read?_eq_some_iff_stages` — what is skipped and what is kept when a head is read.
* `Head.read?_eq_some_iff` — a head is read exactly from the text of an opening.
* `Opening.unique` — a text has one opening at most.
-/

namespace TexSymbols

/-- A text begins with one command only. -/
theorem IsCommand.unique {a b a' b' : Text} (ha : IsCommand a) (hb : EndsRun isLetter b)
    (ha' : IsCommand a') (hb' : EndsRun isLetter b') (h : a ++ b = a' ++ b') :
    a = a' ∧ b = b' := by
  obtain ⟨letters, -, hletters, rfl⟩ := ha
  obtain ⟨letters', -, hletters', rfl⟩ := ha'
  obtain ⟨rfl, hb⟩ := run_unique hletters hb hletters' hb' (List.cons.inj h).2
  exact ⟨rfl, hb⟩

namespace Definition

variable {line r : Text}

/-! ## Blanks and digits in brackets -/

/-- Tab, line feed, vertical tab, form feed, carriage return and space. -/
def asciiBlanks : List Char := ['\t', '\n', '\x0b', '\x0c', '\r', ' ']

theorem isAsciiBlank_iff {c : Char} : isAsciiBlank c = true ↔ c ∈ asciiBlanks := by
  constructor
  · intro h
    have hcode : c.toNat ∈ asciiBlanks.map Char.toNat := by
      simp [isAsciiBlank, isBlank, asciiBlanks] at h ⊢
      omega
    obtain ⟨d, hd, heq⟩ := List.mem_map.1 hcode
    rwa [← Char.toNat_inj.1 heq]
  · have hall : asciiBlanks.all isAsciiBlank = true := by decide
    exact List.all_eq_true.1 hall c

/-- A text that holds ASCII blanks only. -/
def AllBlank (t : Text) : Prop := ∀ c ∈ t, c ∈ asciiBlanks

theorem allBlank_iff {t : Text} : AllBlank t ↔ ∀ c ∈ t, isAsciiBlank c = true :=
  forall₂_congr fun _ _ => isAsciiBlank_iff.symm

theorem allBlank_takeWhile (t : Text) : AllBlank (t.takeWhile isAsciiBlank) :=
  allBlank_iff.2 fun _ hc => List.mem_takeWhile_imp hc

theorem takeWhile_append_skipBlanks (t : Text) :
    t.takeWhile isAsciiBlank ++ skipBlanks t = t :=
  List.takeWhile_append_dropWhile

theorem skipBlanks_append {t : Text} (ht : AllBlank t) (hr : EndsRun isAsciiBlank r) :
    skipBlanks (t ++ r) = r :=
  dropWhile_run (allBlank_iff.1 ht) hr

/-- Blanks end a run of other characters. -/
theorem AllBlank.endsRun {t : Text} {p : Char → Bool} (ht : AllBlank t)
    (hp : asciiBlanks.all (!p ·) = true) : EndsRun p t := by
  intro c hc
  have hmem := ht c (List.mem_of_mem_head? hc)
  simpa using List.all_eq_true.1 hp c hmem

theorem AllBlank.unique {a b a' b' : Text} (ha : AllBlank a) (hb : EndsRun isAsciiBlank b)
    (ha' : AllBlank a') (hb' : EndsRun isAsciiBlank b') (h : a ++ b = a' ++ b') :
    a = a' ∧ b = b' :=
  run_unique (allBlank_iff.1 ha) hb (allBlank_iff.1 ha') hb' h

/-- Digits in brackets are read from such a text only. -/
theorem bracketedDigits?_eq_some_iff {t digits : Text} :
    bracketedDigits? t = some (digits, r) ↔
      t = '[' :: (digits ++ ']' :: r) ∧ digits ≠ [] ∧ ∀ c ∈ digits, c.isDigit = true := by
  constructor
  · intro h
    unfold bracketedDigits? at h
    split at h
    · rename_i tail
      split at h
      · rename_i d ds rest hdigits hrest
        obtain ⟨rfl, rfl⟩ : d :: ds = digits ∧ rest = r := by simpa using h
        refine ⟨?_, by simp, ?_⟩
        · rw [← hdigits, ← hrest, List.takeWhile_append_dropWhile]
        · rw [← hdigits]
          exact fun c hc => List.mem_takeWhile_imp hc
      · cases h
    · cases h
  · rintro ⟨rfl, hne, hdigits⟩
    obtain ⟨d, ds, rfl⟩ := List.exists_cons_of_ne_nil hne
    have hclose : EndsRun Char.isDigit (']' :: r) := endsRun_cons.2 (by decide)
    rw [bracketedDigits?, takeWhile_run hdigits hclose, dropWhile_run hdigits hclose]
    rfl

/-! ## The stages of reading -/

/-- The text without the star at its beginning. -/
def dropStar : Text → Text
  | '*' :: r => r
  | r => r

/-- The head with the command that stands before the text. -/
def Head.ofRest (command t : Text) : Head :=
  match bracketedDigits? (skipBlanks t) with
  | some (digits, r) => ⟨command, some digits, skipBlanks r⟩
  | none => ⟨command, none, skipBlanks t⟩

theorem Head.some_ofRest (command t : Text) :
    (match bracketedDigits? (skipBlanks t) with
      | some (digits, r) => some (⟨command, some digits, skipBlanks r⟩ : Head)
      | none => some ⟨command, none, skipBlanks t⟩) = some (Head.ofRest command t) := by
  unfold Head.ofRest
  cases bracketedDigits? (skipBlanks t) <;> rfl

/-- A head is read from a keyword, a command in braces and what follows. -/
theorem Head.read?_eq_some_iff_stages {h : Head} :
    Head.read? line = some h ↔ ∃ afterKeyword letters afterCommand,
      keywords.findSome? (Text.removePrefix? · (skipBlanks line)) = some afterKeyword ∧
      skipBlanks (dropStar afterKeyword) = '{' :: '\\' :: (letters ++ '}' :: afterCommand) ∧
      letters ≠ [] ∧ (∀ c ∈ letters, isLetter c = true) ∧
      h = Head.ofRest ('\\' :: letters) afterCommand := by
  have hclose : ∀ t, EndsRun isLetter ('}' :: t) := fun t => endsRun_cons.2 (by decide)
  constructor
  · intro hh
    obtain ⟨afterKeyword, hkeyword, hh⟩ := Option.bind_eq_some_iff.1 hh
    obtain ⟨afterBrace, hbrace, hh⟩ := Option.bind_eq_some_iff.1 hh
    obtain ⟨afterCommand, hcommand, hh⟩ := Option.bind_eq_some_iff.1 hh
    have hletters : afterBrace = afterBrace.takeWhile isLetter ++ '}' :: afterCommand := by
      have hdrop := Text.removePrefix?_eq_some.1 hcommand
      exact (List.takeWhile_append_dropWhile (p := isLetter)).symm.trans (congrArg _ hdrop)
    refine ⟨afterKeyword, afterBrace.takeWhile isLetter, afterCommand, hkeyword, ?_, ?_⟩
    · rw [← hletters]
      exact Text.removePrefix?_eq_some.1 hbrace
    · split at hh
      · cases hh
      · rename_i hne
        refine ⟨by simpa using hne, fun c hc => List.mem_takeWhile_imp hc, ?_⟩
        exact Option.some.inj (hh.symm.trans (Head.some_ofRest _ _))
  · rintro ⟨afterKeyword, letters, afterCommand, hkeyword, hbrace, hne, hletters, rfl⟩
    refine Option.bind_eq_some_iff.2 ⟨afterKeyword, hkeyword, ?_⟩
    refine Option.bind_eq_some_iff.2 ⟨letters ++ '}' :: afterCommand, ?_, ?_⟩
    · exact Text.removePrefix?_eq_some.2 hbrace
    · refine Option.bind_eq_some_iff.2 ⟨afterCommand, ?_, ?_⟩
      · rw [dropWhile_run hletters (hclose _)]
        rfl
      · simp only [takeWhile_run hletters (hclose _)]
        rw [if_neg (by simpa using hne)]
        exact Head.some_ofRest _ _

/-! ## What stands before the body -/

/-- A number of arguments: digits, in brackets, and the blanks behind the bracket. -/
@[ext]
structure Arity where
  digits : Text
  gap : Text

/-- The parts of a definition line before the body. -/
@[ext]
structure Opening where
  lead : Text
  keyword : Text
  /-- Nothing or a star. -/
  star : Text
  gap : Text
  command : Text
  arityGap : Text
  arity : Option Arity

namespace Arity

def text (a : Arity) : Text := "[" ++ a.digits ++ "]" ++ a.gap

structure Valid (a : Arity) : Prop where
  digits_ne_nil : a.digits ≠ []
  isDigit : ∀ c ∈ a.digits, c.isDigit = true
  gap : AllBlank a.gap

end Arity

namespace Opening

/-- The text of the number of arguments, if there is one. -/
def arityText (o : Opening) : Text := (o.arity.map Arity.text).getD []

/-- The digits in brackets, if there are any. -/
def digits (o : Opening) : Option Text := o.arity.map Arity.digits

/-- The beginning of a definition line. -/
def text (o : Opening) : Text :=
  o.lead ++ o.keyword ++ o.star ++ o.gap ++ "\x7b" ++ o.command ++ "\x7d" ++ o.arityGap ++
    o.arityText

/-- What the parts of an opening may be. -/
structure Valid (o : Opening) : Prop where
  lead : AllBlank o.lead
  keyword : o.keyword ∈ (["\\newcommand", "\\renewcommand", "\\providecommand"] : List Text)
  star : o.star = [] ∨ o.star = ['*']
  gap : AllBlank o.gap
  command : IsCommand o.command
  arityGap : AllBlank o.arityGap
  arity : ∀ a ∈ o.arity, a.Valid

variable {o : Opening}

/-- What stands behind the command in front of `r`. -/
def afterCommand (o : Opening) (r : Text) : Text := o.arityGap ++ (o.arityText ++ r)

/-- What stands behind the keyword in front of `r`. -/
def afterKeyword (o : Opening) (r : Text) : Text :=
  o.star ++ (o.gap ++ '{' :: (o.command ++ '}' :: o.afterCommand r))

theorem text_append (o : Opening) (r : Text) :
    o.text ++ r = o.lead ++ (o.keyword ++ o.afterKeyword r) := by
  simp [text, afterKeyword, afterCommand]

theorem isCommand_of_keyword (ho : o.Valid) : IsCommand o.keyword := by
  have hmem := ho.keyword
  simp only [List.mem_cons, List.not_mem_nil, or_false] at hmem
  rcases hmem with h | h | h <;> rw [h] <;> exact isCommand_of_all (by decide) (by decide)

theorem endsRun_keyword (ho : o.Valid) (t : Text) : EndsRun isAsciiBlank (o.keyword ++ t) := by
  obtain ⟨_, -, -, heq⟩ := isCommand_of_keyword ho
  exact heq ▸ endsRun_cons.2 (by decide)

/-- The blanks behind the star, and the brace that follows them. -/
theorem endsRun_gap (ho : o.Valid) {p : Char → Bool} (hbrace : p '{' = false)
    (hblank : asciiBlanks.all (!p ·) = true) (t : Text) : EndsRun p (o.gap ++ '{' :: t) :=
  (ho.gap.endsRun hblank).append (endsRun_cons.2 hbrace)

theorem endsRun_afterKeyword (ho : o.Valid) (r : Text) : EndsRun isLetter (o.afterKeyword r) := by
  unfold afterKeyword
  rcases ho.star with hstar | hstar <;> rw [hstar]
  · exact endsRun_gap ho (by decide) (by decide) _
  · exact endsRun_cons.2 (by decide)

theorem endsRun_arityText (hr : EndsRun isAsciiBlank r) :
    EndsRun isAsciiBlank (o.arityText ++ r) := by
  unfold arityText
  cases o.arity with
  | none => exact hr
  | some a => exact endsRun_cons.2 (by decide)

end Opening

/-! ## Reading what stands before the body -/

theorem findSome?_keywords {keyword : Text} (h : keyword ∈ keywords) (t : Text) :
    keywords.findSome? (Text.removePrefix? · (keyword ++ t)) = some t := by
  simp only [keywords, List.mem_cons, List.not_mem_nil, or_false] at h
  rcases h with rfl | rfl | rfl <;> rfl

theorem dropStar_append {star t : Text} (hstar : star = [] ∨ star = ['*'])
    (ht : EndsRun (· = '*') t) : dropStar (star ++ t) = t := by
  rcases hstar with rfl | rfl
  · rw [List.nil_append, dropStar]
    rintro r rfl
    simp at ht
  · rfl

theorem exists_star (t : Text) : ∃ star, (star = [] ∨ star = ['*']) ∧ t = star ++ dropStar t := by
  unfold dropStar
  split
  · exact ⟨['*'], .inr rfl, rfl⟩
  · exact ⟨[], .inl rfl, rfl⟩

/-- What follows an opening does not go on with it. -/
structure Opening.Ends (o : Opening) (r : Text) : Prop where
  endsRun : EndsRun isAsciiBlank r
  noDigits : o.arity = none → bracketedDigits? r = none

theorem Head.ofRest_afterCommand {o : Opening} (ho : o.Valid) (hr : o.Ends r) :
    Head.ofRest o.command (o.afterCommand r) = ⟨o.command, o.digits, r⟩ := by
  have hskip : skipBlanks (o.afterCommand r) = o.arityText ++ r :=
    skipBlanks_append ho.arityGap (Opening.endsRun_arityText hr.endsRun)
  unfold Head.ofRest
  rw [hskip]
  cases harity : o.arity with
  | none =>
    have htext : o.arityText ++ r = r := by simp [Opening.arityText, harity]
    rw [htext, hr.noDigits harity, Opening.digits, harity]
    rfl
  | some a =>
    obtain ⟨hne, hdigits, hgap⟩ := ho.arity a harity
    have htext : o.arityText ++ r = '[' :: (a.digits ++ ']' :: (a.gap ++ r)) := by
      simp [Opening.arityText, harity, Arity.text]
    rw [htext, bracketedDigits?_eq_some_iff.2 ⟨rfl, hne, hdigits⟩, Opening.digits, harity]
    simp only [skipBlanks_append hgap hr.endsRun, Option.map_some]

theorem Head.read?_append {o : Opening} (ho : o.Valid) (hr : o.Ends r) :
    Head.read? (o.text ++ r) = some ⟨o.command, o.digits, r⟩ := by
  obtain ⟨letters, hne, hletters, hcommand⟩ := ho.command
  have hlead : skipBlanks (o.text ++ r) = o.keyword ++ o.afterKeyword r := by
    rw [Opening.text_append]
    exact skipBlanks_append ho.lead (Opening.endsRun_keyword ho _)
  have hbrace : skipBlanks (dropStar (o.afterKeyword r)) =
      '{' :: '\\' :: (letters ++ '}' :: o.afterCommand r) := by
    have hgap := Opening.endsRun_gap (p := (· = '*')) ho (by decide) (by decide)
    rw [Opening.afterKeyword, dropStar_append ho.star (hgap _),
      skipBlanks_append ho.gap (endsRun_cons.2 (by decide)), hcommand]
    rfl
  refine Head.read?_eq_some_iff_stages.2
    ⟨o.afterKeyword r, letters, o.afterCommand r, ?_, hbrace, hne, hletters, ?_⟩
  · rw [hlead, findSome?_keywords ho.keyword]
  · rw [← hcommand, Head.ofRest_afterCommand ho hr]

/-- What follows the command is a number of arguments, if there is one, and the rest. -/
theorem Head.exists_arity (command t : Text) :
    ∃ arity : Option Arity, (∀ a ∈ arity, a.Valid) ∧
      skipBlanks t = (arity.map Arity.text).getD [] ++ (Head.ofRest command t).rest ∧
      Head.ofRest command t = ⟨command, arity.map Arity.digits, (Head.ofRest command t).rest⟩ ∧
      EndsRun isAsciiBlank (Head.ofRest command t).rest ∧
      (arity = none → bracketedDigits? (Head.ofRest command t).rest = none) := by
  unfold Head.ofRest
  cases hdigits : bracketedDigits? (skipBlanks t) with
  | none => exact ⟨none, by simp, rfl, rfl, endsRun_dropWhile t, fun _ => hdigits⟩
  | some p =>
    obtain ⟨digits, r⟩ := p
    obtain ⟨ht, hne, hall⟩ := bracketedDigits?_eq_some_iff.1 hdigits
    refine ⟨some ⟨digits, r.takeWhile isAsciiBlank⟩, ?_, ?_, rfl, endsRun_dropWhile r, by simp⟩
    · simpa using ⟨hne, hall, allBlank_takeWhile r⟩
    · simp [Arity.text, takeWhile_append_skipBlanks, ht]

/-- A head that was read has an opening in front of it. -/
theorem Head.exists_opening {h : Head} (hh : Head.read? line = some h) :
    ∃ o : Opening, o.Valid ∧ o.Ends h.rest ∧ line = o.text ++ h.rest ∧
      h.command = o.command ∧ h.digits = o.digits := by
  obtain ⟨afterKeyword, letters, t, hkeyword, hbrace, hne, hletters, rfl⟩ :=
    Head.read?_eq_some_iff_stages.1 hh
  obtain ⟨keyword, hmem, hprefix⟩ := List.exists_of_findSome?_eq_some hkeyword
  obtain ⟨star, hstar, hafter⟩ := exists_star afterKeyword
  obtain ⟨arity, harity, ht, hhead, hends, hnone⟩ := Head.exists_arity ('\\' :: letters) t
  let o : Opening :=
    { lead := line.takeWhile isAsciiBlank
      keyword
      star
      gap := (dropStar afterKeyword).takeWhile isAsciiBlank
      command := '\\' :: letters
      arityGap := t.takeWhile isAsciiBlank
      arity }
  have hvalid : o.Valid :=
    { lead := allBlank_takeWhile _
      keyword := hmem
      star := hstar
      gap := allBlank_takeWhile _
      command := ⟨letters, hne, hletters, rfl⟩
      arityGap := allBlank_takeWhile _
      arity := harity }
  refine ⟨o, hvalid, ⟨hends, hnone⟩, ?_, congrArg Head.command hhead, congrArg Head.digits hhead⟩
  have hcommand : o.afterCommand (Head.ofRest ('\\' :: letters) t).rest = t := by
    rw [Opening.afterCommand, Opening.arityText, ← ht]
    exact takeWhile_append_skipBlanks t
  have hrest : o.afterKeyword (Head.ofRest ('\\' :: letters) t).rest = afterKeyword := by
    have hbody := takeWhile_append_skipBlanks (dropStar afterKeyword)
    rw [hbrace] at hbody
    rw [Opening.afterKeyword, hcommand]
    exact (congrArg (star ++ ·) hbody).trans hafter.symm
  rw [Opening.text_append, hrest, ← Text.removePrefix?_eq_some.1 hprefix]
  exact (takeWhile_append_skipBlanks line).symm

/-- **A head is read exactly from an opening that what follows does not go on with.** -/
theorem Head.read?_eq_some_iff {h : Head} :
    Head.read? line = some h ↔ ∃ o : Opening, o.Valid ∧ o.Ends h.rest ∧
      line = o.text ++ h.rest ∧ h.command = o.command ∧ h.digits = o.digits := by
  constructor
  · exact Head.exists_opening
  · obtain ⟨command, digits, rest⟩ := h
    rintro ⟨o, ho, hends, rfl, rfl, rfl⟩
    exact Head.read?_append ho hends

/-! ## A text has one opening at most -/

namespace Opening

variable {o o' : Opening} {r r' : Text}

theorem arity_eq (hdigits : o.digits = o'.digits) (htext : o.arityText = o'.arityText) :
    o.arity = o'.arity := by
  unfold digits at hdigits
  unfold arityText at htext
  cases ha : o.arity with
  | none =>
    rw [ha] at hdigits
    exact (Option.map_eq_none_iff.1 hdigits.symm).symm
  | some a =>
    rw [ha] at hdigits
    obtain ⟨a', ha', heq⟩ := Option.map_eq_some_iff.1 hdigits.symm
    rw [ha, ha'] at htext
    have hgap : a.gap = a'.gap := by simpa [Arity.text, heq] using htext
    rw [ha', Arity.ext heq.symm hgap]

theorem isStar (ho : o.Valid) : ∀ c ∈ o.star, decide (c = '*') = true := by
  rcases ho.star with hstar | hstar <;> simp [hstar]

/-- A text has one opening at most. -/
theorem unique (ho : o.Valid) (ho' : o'.Valid) (hr : o.Ends r) (hr' : o'.Ends r')
    (h : o.text ++ r = o'.text ++ r') : o = o' ∧ r = r' := by
  -- what the head has of the opening is what is read
  have hhead := Head.read?_append ho hr
  rw [h, Head.read?_append ho' hr'] at hhead
  obtain ⟨hcommand, hdigits, rfl⟩ := Head.mk.inj (Option.some.inj hhead)
  rw [text_append, text_append] at h
  obtain ⟨hlead, h⟩ := ho.lead.unique (endsRun_keyword ho _) ho'.lead (endsRun_keyword ho' _) h
  obtain ⟨hkeyword, h⟩ := (isCommand_of_keyword ho).unique (endsRun_afterKeyword ho _)
    (isCommand_of_keyword ho') (endsRun_afterKeyword ho' _) h
  obtain ⟨hstar, h⟩ := run_unique (isStar ho) (endsRun_gap ho (by decide) (by decide) _)
    (isStar ho') (endsRun_gap ho' (by decide) (by decide) _) h
  obtain ⟨hgap, h⟩ := ho.gap.unique (endsRun_cons.2 (by decide)) ho'.gap
    (endsRun_cons.2 (by decide)) h
  rw [hcommand] at h
  have hafter := List.append_cancel_left (List.cons.inj h).2
  obtain ⟨harityGap, htext⟩ := ho.arityGap.unique (endsRun_arityText hr.endsRun) ho'.arityGap
    (endsRun_arityText hr'.endsRun) (List.cons.inj hafter).2
  have harity := arity_eq hdigits.symm (List.append_cancel_right htext)
  exact ⟨Opening.ext hlead hkeyword hstar hgap hcommand.symm harityGap harity, rfl⟩

end Opening

end Definition

end TexSymbols
