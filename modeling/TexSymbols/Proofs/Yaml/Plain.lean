import Mathlib.Data.List.Basic
import TexSymbols.Yaml.Plain
import TexSymbols.Yaml.Scalar

/-!
# Plain text that was written is read back

* `hasPair_cons_cons`, `anyTail_cons` — the tests of the writer, character by character.
* `plainAllowed_of_word` — words may be written plain.
* `PlainTail` — what the reader asks of the rest of a plain text on one line; `plainTail_of_allowed`
  — what may be written plain has it.
* `readPlain?_append` — such a text is taken in whole, whatever follows.
* `readPlain?_colon`, `readPlain?_newline` — what ends it: a colon, or a line that is not indented.
-/

namespace TexSymbols.Yaml

/-! ## Characters -/

theorem isBlank_of_printable {c : Char} (h : isPrintable c = true) :
    isBlank c = decide (c = ' ') := by
  have htab : c ≠ '\t' := by
    rintro rfl
    cases h
  simp [isBlank, htab]

theorem isBreak_newline : isBreak '\n' = true := rfl

theorem isBreak_space : isBreak ' ' = false := rfl

theorem after_of_not_isBreak {c : Char} (h : isBreak c = false) (p : Position) :
    p.after c = p.right 1 := by
  rw [Position.after, if_neg (by simp [h]), Position.right]

theorem endsWord_append {t : Text} (h : endsWord t = false) (r : Text) : endsWord (t ++ r) = false := by
  cases t with
  | nil => cases h
  | cons c t => exact h

theorem hasPair_cons_cons {p q : Char → Bool} (c d : Char) (t : Text) :
    hasPair p q (c :: d :: t) = (p c && q d || hasPair p q (d :: t)) := by
  simp [hasPair]

theorem hasPair_of_cons {p q : Char → Bool} {c : Char} {t : Text}
    (h : hasPair p q (c :: t) = false) : hasPair p q t = false := by
  cases t with
  | nil => rfl
  | cons d t =>
    rw [hasPair_cons_cons, Bool.or_eq_false_iff] at h
    exact h.2

theorem anyTail_cons {p : Text → Bool} (c : Char) (t : Text) :
    anyTail p (c :: t) = (p (c :: t) || anyTail p t) := rfl

/-! ## What may be written plain -/

/-- The rest of a plain text on one line: it ends in no space, no number sign follows a space, and
no colon ends a word.  `spaced` says whether a space stands before the rest. -/
def PlainTail : (spaced : Bool) → Text → Prop
  | spaced, [] => spaced = false
  | spaced, c :: r =>
    isBreak c = false ∧ c ≠ '\t' ∧
      if c = ' ' then PlainTail true r
      else ¬ (spaced = true ∧ c = '#') ∧ ¬ (c = ':' ∧ endsWord r = true) ∧ PlainTail false r

theorem plainTail_of {spaced : Bool} {t : Text}
    (hprintable : ∀ c ∈ t, isPrintable c = true) (hunbroken : ∀ c ∈ t, isBreak c = false)
    (hcolon : anyTail (fun u => u.head? = some ':' && endsWord u.tail) t = false)
    (hsign : hasPair (fun c => isBlank c || isBreak c) (· = '#') t = false)
    (hlast : t.getLast? ≠ some ' ')
    (hspaced : spaced = true → t ≠ [] ∧ t.head? ≠ some '#') : PlainTail spaced t := by
  induction t generalizing spaced with
  | nil =>
    cases spaced with
    | false => rfl
    | true => exact absurd rfl (hspaced rfl).1
  | cons c t ih =>
    rw [List.forall_mem_cons] at hprintable hunbroken
    rw [anyTail_cons, Bool.or_eq_false_iff] at hcolon
    have hrest : t ≠ [] → t.getLast? ≠ some ' ' := by
      intro hne
      obtain ⟨d, t, rfl⟩ := List.exists_cons_of_ne_nil hne
      rwa [List.getLast?_cons_cons] at hlast
    have hlast' : t.getLast? ≠ some ' ' := by
      by_cases hne : t = []
      · simp [hne]
      · exact hrest hne
    have htail : ∀ spaced, (spaced = true → t ≠ [] ∧ t.head? ≠ some '#') → PlainTail spaced t :=
      fun spaced => ih hprintable.2 hunbroken.2 hcolon.2 (hasPair_of_cons hsign) hlast'
    refine ⟨hunbroken.1, ?_, ?_⟩
    · rintro rfl
      cases hprintable.1
    by_cases hc : c = ' '
    · -- a number sign behind this space would begin a comment
      subst hc
      rw [if_pos rfl]
      refine htail true fun _ => ⟨?_, ?_⟩
      · rintro rfl
        exact hlast rfl
      · intro hhead
        obtain ⟨t', rfl⟩ := List.head?_eq_some_iff.1 hhead
        rw [hasPair_cons_cons] at hsign
        cases hsign
    · rw [if_neg hc]
      refine ⟨?_, ?_, htail false (by simp)⟩
      · rintro ⟨hs, rfl⟩
        exact (hspaced hs).2 rfl
      · rintro ⟨rfl, hword⟩
        simp [hword] at hcolon

theorem printable_of_singleAllowed {t : Text} (h : singleAllowed t = true) :
    ∀ c ∈ t, isPrintable c = true := by
  simp only [singleAllowed, isUnprintable, Bool.and_eq_true, Bool.not_eq_true',
    List.any_eq_false] at h
  intro c hc
  simpa using h.2 c hc

theorem printable_of_plainAllowed {t : Text} (h : plainAllowed t = true) :
    ∀ c ∈ t, isPrintable c = true := by
  simp only [plainAllowed, Bool.and_eq_true] at h
  exact printable_of_singleAllowed h.1.1.2

theorem unbroken_of_plainAllowed {t : Text} (h : plainAllowed t = true) :
    ∀ c ∈ t, isBreak c = false := by
  simp only [plainAllowed, Bool.and_eq_true, Bool.not_eq_true', List.any_eq_false] at h
  intro c hc
  simpa using h.1.1.1.1 c hc

/-- What may be written plain is read on. -/
theorem plainTail_of_allowed {t : Text} (h : plainAllowed t = true) : PlainTail false t := by
  have hprintable := printable_of_plainAllowed h
  have hunbroken := unbroken_of_plainAllowed h
  simp only [plainAllowed, holdsSpecial, hasOuterSpace, Bool.and_eq_true, Bool.not_eq_true',
    Bool.or_eq_false_iff] at h
  obtain ⟨⟨⟨⟨-, -, hlast⟩, -⟩, -⟩, hcolon, hsign⟩ := h
  refine plainTail_of hprintable hunbroken hcolon hsign ?_ (by simp)
  intro heq
  rw [heq] at hlast
  cases hlast

/-- What may be written plain and is not empty begins as plain text does, whatever follows it. -/
theorem startsPlain_append {t : Text} (h : plainAllowed t = true) (hne : t ≠ []) (r : Text) :
    startsPlain false (t ++ r) = true := by
  have hprintable := printable_of_plainAllowed h
  have hunbroken := unbroken_of_plainAllowed h
  obtain ⟨c, t, rfl⟩ := List.exists_cons_of_ne_nil hne
  simp only [plainAllowed, startsSpecial, hasOuterSpace, Bool.and_eq_true, Bool.not_eq_true',
    Bool.or_eq_false_iff] at h
  obtain ⟨⟨⟨⟨-, hfirst, -⟩, -⟩, -, hindicator, hmark⟩, -⟩ := h
  have hc : isPrintable c = true := hprintable c List.mem_cons_self
  have hbreak : isBreak c = false := hunbroken c List.mem_cons_self
  have hspace : c ≠ ' ' := by
    rintro rfl
    cases hfirst
  have hblank : isBlank c = false := by rw [isBlank_of_printable hc]; simp [hspace]
  rw [List.cons_append, startsPlain]
  by_cases hsign : c ∈ ['-', '?', ':']
  · have hword : endsWord (t ++ r) = false := by
      refine endsWord_append ?_ r
      simpa [hsign] using hmark
    simp only [List.mem_cons, List.not_mem_nil, or_false] at hsign
    obtain rfl | rfl | rfl := hsign <;> simp [hword]
  · have hnot : c ∉ indicators := by
      simp only [indicators, startIndicators, List.mem_cons, List.not_mem_nil, or_false,
        decide_eq_false_iff_not, not_or] at hindicator hsign ⊢
      tauto
    simp only [List.mem_cons, List.not_mem_nil, or_false, not_or] at hsign
    rw [if_neg hsign.1, if_neg (by tauto)]
    simp [hblank, hbreak, hnot]

/-- Letters, digits, underscores and backslashes. -/
def isWordSign (c : Char) : Bool := c.isAlphanum || c = '_' || c = '\\'

theorem toNat_lt_of_isWordSign {c : Char} (h : isWordSign c = true) : c.toNat < 128 := by
  have hsplit : isWordSign c =
      (c.isUpper || c.isLower || c.isDigit || decide (c = '_') || decide (c = '\\')) := rfl
  rw [hsplit] at h
  simp only [Bool.or_eq_true, decide_eq_true_eq] at h
  have hle : ∀ {bound : UInt32}, c.val ≤ bound → c.toNat ≤ bound.toNat := UInt32.le_iff_toNat_le.1
  rcases h with (((hupper | hlower) | hdigit) | rfl) | rfl
  · have hrange : 'A'.val ≤ c.val ∧ c.val ≤ 'Z'.val := of_decide_eq_true hupper
    exact Nat.lt_of_le_of_lt (hle hrange.2) (by decide)
  · have hbound : c.val ≤ 'z'.val := of_decide_eq_true ((Bool.and_eq_true _ _).mp hlower).2
    exact Nat.lt_of_le_of_lt (hle hbound) (by decide)
  · have hbound : c.val ≤ '9'.val := of_decide_eq_true ((Bool.and_eq_true _ _).mp hdigit).2
    exact Nat.lt_of_le_of_lt (hle hbound) (by decide)
  · decide
  · decide

theorem isWordSign_spec {c : Char} (h : isWordSign c = true) : isPrintable c = true ∧
    isBreak c = false ∧ c ∉ ' ' :: '-' :: '?' :: ':' :: '.' :: startIndicators := by
  have hall : (List.range 128).all (fun n => !isWordSign (Char.ofNat n) ||
      isPrintable (Char.ofNat n) && !isBreak (Char.ofNat n) &&
        decide (Char.ofNat n ∉ ' ' :: '-' :: '?' :: ':' :: '.' :: startIndicators)) = true := by
    decide +kernel
  have hc := List.all_eq_true.1 hall c.toNat (List.mem_range.2 (toNat_lt_of_isWordSign h))
  rw [Char.ofNat_toNat, h] at hc
  simpa [and_assoc] using hc

theorem hasPair_eq_false {p q : Char → Bool} {t : Text} (h : ∀ c ∈ t, p c = false) :
    hasPair p q t = false := by
  rw [hasPair, List.any_eq_false]
  intro e he
  simp [h e.1 (List.of_mem_zip he).1]

theorem anyTail_eq_false {p : Text → Bool} {t : Text} (h : ∀ c ∈ t, ∀ r, p (c :: r) = false) :
    anyTail p t = false := by
  induction t with
  | nil => rfl
  | cons c t ih =>
    rw [List.forall_mem_cons] at h
    rw [anyTail_cons, h.1 t, ih h.2, Bool.or_false]

section Word

variable {t : Text}

theorem isBlank_of_word (h : ∀ c ∈ t, isWordSign c = true) : ∀ c ∈ t, isBlank c = false := by
  intro c hc
  obtain ⟨hprintable, -, hother⟩ := isWordSign_spec (h c hc)
  rw [isBlank_of_printable hprintable]
  refine decide_eq_false ?_
  rintro rfl
  exact hother List.mem_cons_self

theorem hasOuterSpace_of_word (h : ∀ c ∈ t, isWordSign c = true) : hasOuterSpace t = false := by
  have houter : ∀ o : Option Char, (∀ c ∈ o, c ∈ t) →
      o.any (fun c => c = ' ' || isBreak c) = false := by
    intro o ho
    cases o with
    | none => rfl
    | some c =>
      obtain ⟨-, hbreak, hother⟩ := isWordSign_spec (h c (ho c rfl))
      have hspace : c ≠ ' ' := fun heq => hother (by simp [heq])
      simp [hspace, hbreak]
  exact Bool.or_eq_false_iff.2
    ⟨houter _ fun c hc => List.mem_of_head? hc, houter _ fun c hc => List.mem_of_getLast? hc⟩

theorem singleAllowed_of_word (h : ∀ c ∈ t, isWordSign c = true) : singleAllowed t = true := by
  have hbreak : ∀ c ∈ t, isBreak c = false := fun c hc => (isWordSign_spec (h c hc)).2.1
  have hspace : ∀ c ∈ t, decide (c = ' ') = false := fun c hc =>
    (isBlank_of_printable (isWordSign_spec (h c hc)).1).symm.trans (isBlank_of_word h c hc)
  have hprintable : isUnprintable t = false := by
    rw [isUnprintable, List.any_eq_false]
    intro c hc
    simp [(isWordSign_spec (h c hc)).1]
  rw [singleAllowed, hasPair_eq_false hbreak, hasPair_eq_false hspace, hprintable]
  rfl

theorem startsSpecial_of_word (h : ∀ c ∈ t, isWordSign c = true) : startsSpecial t = false := by
  cases t with
  | nil => rfl
  | cons c t =>
    have hc := (isWordSign_spec (h c List.mem_cons_self)).2.2
    simp only [List.mem_cons, not_or] at hc
    simp [startsSpecial, List.isPrefixOf, Ne.symm hc.2.1, Ne.symm hc.2.2.2.2.1, hc]

theorem holdsSpecial_of_word (h : ∀ c ∈ t, isWordSign c = true) : holdsSpecial t = false := by
  have hcolon : ∀ c ∈ t, ∀ r : Text,
      (decide ((c :: r).head? = some ':') && endsWord (c :: r).tail) = false := by
    intro c hc r
    have hne : c ≠ ':' := fun heq => (isWordSign_spec (h c hc)).2.2 (by simp [heq])
    simp [hne]
  have hwhite : ∀ c ∈ t, (isBlank c || isBreak c) = false := fun c hc => by
    rw [isBlank_of_word h c hc, (isWordSign_spec (h c hc)).2.1, Bool.or_false]
  rw [holdsSpecial, anyTail_eq_false hcolon, hasPair_eq_false hwhite, Bool.or_false]

/-- A word may be written plain. -/
theorem plainAllowed_of_word (h : ∀ c ∈ t, isWordSign c = true) : plainAllowed t = true := by
  have hunbroken : t.any isBreak = false := by
    rw [List.any_eq_false]
    intro c hc
    simp [(isWordSign_spec (h c hc)).2.1]
  rw [plainAllowed, hunbroken, hasOuterSpace_of_word h, singleAllowed_of_word h,
    startsSpecial_of_word h, holdsSpecial_of_word h]
  rfl

end Word

/-! ## Reading -/

variable {margin : Nat} {p : Position} {r t : Text}

theorem right_right (p : Position) (m n : Nat) : (p.right m).right n = p.right (m + n) := by
  simp [Position.right, Nat.add_assoc]

/-- A character of a plain text on one line does not end it. -/
theorem endsPlain_eq_false {spaced : Bool} {b : Text} {c : Char}
    (hsign : ¬ (spaced = true ∧ c = '#')) (hcolon : ¬ (c = ':' ∧ endsWord t = true))
    (hspaced : spaced = !b.isEmpty) (hcolumn : b ≠ [] → p.column ≠ 0 ∧ margin ≤ p.column)
    (r : Text) : endsPlain false margin (.blanks b) p (c :: (t ++ r)) = false := by
  have hword : (decide (c = ':') && endsWord (t ++ r)) = false := by
    by_cases hc : c = ':'
    · have hword : endsWord t = false := by simpa [hc] using hcolon
      simp [endsWord_append hword]
    · simp [hc]
  by_cases hb : b = []
  · subst hb
    simp only [endsPlain, hword]
    rfl
  · have hspaced' : spaced = true := by
      rw [hspaced, List.isEmpty_eq_false_iff.2 hb]
      rfl
    have hc : c ≠ '#' := fun heq => hsign ⟨hspaced', heq⟩
    have hmarker : atMarker p (c :: (t ++ r)) = false := by
      simp [atMarker, (hcolumn hb).1]
    simp only [endsPlain, hword, hmarker]
    simp [hc, (hcolumn hb).2]

/-- **Plain text on one line is taken in whole**: reading goes on behind it. -/
theorem readPlain?_append {spaced : Bool} (b : Text) (h : PlainTail spaced t)
    (hspaced : spaced = !b.isEmpty) (hmargin : margin ≤ p.column + 1)
    (hcolumn : b ≠ [] → p.column ≠ 0 ∧ margin ≤ p.column) (r : Text) :
    readPlain? false margin (.blanks b) p (t ++ r) =
      (readPlain? false margin .empty (p.right t.length) r).map
        fun s => { s with text := b ++ t ++ s.text } := by
  -- along the text; what is between two words is kept as the gap
  induction t generalizing spaced b p with
  | nil =>
    obtain rfl : b = [] := by
      rw [PlainTail] at h
      simpa [h] using hspaced
    simp [Position.right, Gap.empty]
  | cons c t ih =>
    obtain ⟨hbreak, htab, hrest⟩ := h
    have hafter := after_of_not_isBreak hbreak p
    have hmargin' : margin ≤ (p.right 1).column + 1 := Nat.le_succ_of_le hmargin
    have hlength : (p.right 1).right t.length = p.right (t.length + 1) := by
      rw [right_right, Nat.add_comm]
    rw [List.cons_append, readPlain?, List.length_cons, ← hlength, hafter]
    by_cases hc : c = ' '
    · rw [if_pos hc] at hrest
      subst hc
      have hgap : (Gap.blanks b).add ' ' = .blanks (b ++ [' ']) := rfl
      have hrec := ih (b ++ [' ']) hrest (by simp) hmargin' fun _ => ⟨Nat.succ_ne_zero _, hmargin⟩
      rw [if_pos (by rfl), if_neg (by simp), hgap, hrec]
      simp
    · rw [if_neg hc] at hrest
      obtain ⟨hsign, hcolon, hrest⟩ := hrest
      have hblank : isBlank c = false := by simp [isBlank, hc, htab]
      have hends := endsPlain_eq_false hsign hcolon hspaced hcolumn r
      have hrec := ih [] hrest rfl hmargin' (by simp)
      rw [if_neg (by simp [hbreak, hblank]), if_neg (by simp [hends]), if_neg (by simp)]
      simp only [Gap.empty] at hrec ⊢
      rw [hrec, Option.map_map]
      simp [Function.comp_def, Gap.text]

/-- A colon that ends a word ends plain text. -/
theorem readPlain?_colon (hr : endsWord r = true) :
    readPlain? false margin .empty p (':' :: r) = some ⟨[], ⟨':' :: r, p⟩, false⟩ := by
  have hends : endsPlain false margin .empty p (':' :: r) = true := by simp [endsPlain, hr]
  rw [readPlain?, if_neg (by decide), if_pos hends]
  rfl

/-- A text at whose beginning a token stands, or that is empty. -/
def StartsToken (t : Text) : Prop :=
  ∀ c ∈ t.head?, isBreak c = false ∧ isBlank c = false ∧ c ≠ '#' ∧ c ≠ '\ufeff'

/-- What may stand behind the `k` spaces of a line: a token, or nothing if there are no spaces. -/
structure BeginsLine (k : Nat) (r : Text) : Prop where
  starts : StartsToken r
  column_of_nil : r = [] → k = 0

theorem readPlain?_spaces {first : Option Char} {more : Text} {k : Nat} (hr : StartsToken r)
    (hmargin : p.column + k < margin) :
    readPlain? false margin (.breaks first more) p (spaces k ++ r) =
      some ⟨[], ⟨r, p.right k⟩, true⟩ := by
  induction k generalizing p with
  | zero =>
    cases r with
    | nil => rfl
    | cons c r =>
      obtain ⟨hbreak, hblank, -, -⟩ := hr c rfl
      have hends : endsPlain false margin (.breaks first more) p (c :: r) = true := by
        have hlt : p.column < margin := hmargin
        simp [endsPlain, Gap.empty, hlt]
      rw [spaces, List.replicate_zero, List.nil_append, readPlain?,
        if_neg (by simp [hbreak, hblank]), if_pos hends]
      rfl
  | succ k ih =>
    have hright : (p.right 1).right k = p.right (k + 1) := by rw [right_right, Nat.add_comm]
    have hrec := ih (p := p.right 1) (by simp only [Position.right]; omega)
    rw [spaces, List.replicate_succ, List.cons_append, readPlain?, if_pos (by rfl),
      if_neg (by simp), after_of_not_isBreak isBreak_space, ← hright]
    exact hrec

/-- A line that is not indented far enough ends plain text. -/
theorem readPlain?_newline {k : Nat} (hr : StartsToken r) (hmargin : k < margin) :
    readPlain? false margin .empty p ('\n' :: (spaces k ++ r)) =
      some ⟨[], ⟨r, ⟨p.line + 1, k⟩⟩, true⟩ := by
  have hafter : p.after '\n' = ⟨p.line + 1, 0⟩ := rfl
  have hgap : Gap.empty.add '\n' = .breaks (some '\n') [] := rfl
  have hcolumn : 0 + k < margin := by rwa [Nat.zero_add]
  rw [readPlain?, if_pos (by rfl), if_neg (by simp), hafter, hgap, readPlain?_spaces hr hcolumn,
    Position.right, Nat.zero_add]

end TexSymbols.Yaml
