import Mathlib.Tactic.Ring
import TexSymbols.Proofs.Yaml.Plain

/-!
# Quoted text that was written is read back

* `readSingle?_singleBody` — between single quotes: the line breaks stay, and the indentation behind
  them is dropped.
* `hexChar?_hexDigits`, `escaped?_escapeLetter?` — escapes.
* `readDouble?_flatMap` — between double quotes: everything stands on one line.
-/

namespace TexSymbols.Yaml

variable {c : Char} {r t : Text} {p : Position} {g : Gap}

theorem prepend_some {α : Type} (piece t : Text) (x : α) :
    prepend piece (some (t, x)) = some (piece ++ t, x) := rfl

theorem prepend_nil {α : Type} (x : Option (Text × α)) : prepend [] x = x := by
  cases x <;> rfl

/-! ## Single quotes -/

theorem readSingle?_white (hq : c ≠ '\'') (hc : (isBreak c || isBlank c) = true) :
    readSingle? g p (c :: r) = readSingle? (g.add c) (p.after c) r := by
  rw [readSingle?.eq_4 _ _ _ _ (by rintro r' rfl -; exact hq rfl) hq, if_pos hc]

theorem readSingle?_text (hq : c ≠ '\'') (hbreak : isBreak c = false) (hblank : isBlank c = false)
    (hp : p.column ≠ 0) :
    readSingle? g p (c :: r) = prepend (g.text ++ [c]) (readSingle? .empty (p.right 1) r) := by
  rw [readSingle?.eq_4 _ _ _ _ (by rintro r' rfl -; exact hq rfl) hq,
    if_neg (by simp [hbreak, hblank]), if_neg (by simp [atMarker, hp]),
    after_of_not_isBreak hbreak]

theorem readSingle?_end (hr : r.head? ≠ some '\'') :
    readSingle? g p ('\'' :: r) = some (g.text, ⟨r, p.right 1⟩) := by
  rw [readSingle?.eq_3]
  rintro r' rfl
  exact hr rfl

/-- The indentation of a line is dropped. -/
theorem readSingle?_spaces (first : Option Char) (more : Text) (k : Nat) :
    readSingle? (.breaks first more) p (spaces k ++ r) =
      readSingle? (.breaks first more) (p.right k) r := by
  induction k generalizing p with
  | zero => rfl
  | succ k ih =>
    rw [spaces, List.replicate_succ, List.cons_append, readSingle?_white (by decide) rfl,
      after_of_not_isBreak isBreak_space]
    exact ih.trans (by rw [right_right, Nat.add_comm])

/-- A gap before the rest `t` of a single-quoted text.  `atLine` says whether a line has begun whose
indentation is still to come. -/
def SingleGap (atLine : Bool) (p : Position) (t : Text) : Gap → Prop
  | .blanks b => atLine = false ∧ p.column ≠ 0 ∧ (b ≠ [] → ∀ c ∈ t.head?, isBreak c = false)
  | .breaks first _ => atLine = true ∧ t.head? ≠ some ' ' ∧ ∃ c, first = some c ∧ c ≠ '\n'

theorem SingleGap.empty (hp : p.column ≠ 0) : SingleGap false p t .empty :=
  ⟨rfl, hp, fun h => absurd rfl h⟩

/-- A break belongs to the text and begins a line. -/
theorem SingleGap.add_break {atLine : Bool} (h : SingleGap atLine p (c :: t) g)
    (hc : isBreak c = true) (hn : c ≠ '\n') (hspace : t.head? ≠ some ' ') :
    SingleGap true (p.after c) t (g.add c) ∧ (g.add c).text = g.text ++ [c] := by
  cases g with
  | blanks b =>
    have hb : b = [] := by
      by_contra hne
      have hnot := h.2.2 hne c rfl
      rw [hc] at hnot
      cases hnot
    subst hb
    have hadd : (Gap.blanks []).add c = .breaks (some c) [] := by rw [Gap.add, if_pos hc]
    rw [hadd]
    refine ⟨⟨rfl, hspace, c, rfl, hn⟩, ?_⟩
    simp [Gap.text, hn]
  | breaks first more =>
    obtain ⟨-, -, d, rfl, hd⟩ := h
    have hadd : (Gap.breaks (some d) more).add c = .breaks (some d) (more ++ [c]) := by
      rw [Gap.add, if_pos hc]
    rw [hadd]
    refine ⟨⟨rfl, hspace, d, rfl, hd⟩, ?_⟩
    simp [Gap.text, hd]

/-- If a line has begun, its indentation comes first. -/
theorem SingleGap.indentation {atLine : Bool} {indent : Nat} (h : SingleGap atLine p t g)
    (hindent : indent ≠ 0) : ∃ q : Position, q.column ≠ 0 ∧ ∀ rest,
      readSingle? g p ((if atLine = true then spaces indent else []) ++ rest) =
        readSingle? g q rest := by
  cases g with
  | blanks b =>
    obtain ⟨rfl, hp, -⟩ := h
    exact ⟨p, hp, fun _ => rfl⟩
  | breaks first more =>
    obtain ⟨rfl, -⟩ := h
    refine ⟨p.right indent, ?_, fun rest => ?_⟩
    · simp only [Position.right]
      omega
    · rw [if_pos rfl, readSingle?_spaces]

/-- Reading `c` between single quotes, in front of `t`: some text is read, and a gap before `t` is
left that holds the rest. -/
def SingleStep (indent : Nat) (atLine : Bool) (p : Position) (g : Gap) (c : Char) (t : Text) : Prop :=
  ∃ piece atLine' q g', SingleGap atLine' q t g' ∧ piece ++ Gap.text g' = g.text ++ [c] ∧
    ∀ r, readSingle? g p (singleBody indent atLine (c :: t) ++ r) =
      prepend piece (readSingle? g' q (singleBody indent atLine' t ++ r))

theorem SingleStep.of_break {indent : Nat} {atLine : Bool} (hg : SingleGap atLine p (c :: t) g)
    (hc : isBreak c = true) (hn : c ≠ '\n') (hbehind : hasPair isBreak (· = ' ') (c :: t) = false) :
    SingleStep indent atLine p g c t := by
  have hspace : t.head? ≠ some ' ' := by
    intro hhead
    obtain ⟨t', rfl⟩ := List.head?_eq_some_iff.1 hhead
    rw [hasPair_cons_cons, hc] at hbehind
    cases hbehind
  have hq : c ≠ '\'' := by
    rintro rfl
    cases hc
  obtain ⟨hgap, htext⟩ := hg.add_break hc hn hspace
  refine ⟨[], true, p.after c, g.add c, hgap, htext, fun r => ?_⟩
  rw [singleBody, if_pos hc, List.cons_append, readSingle?_white hq (by simp [hc]), prepend_nil]

theorem SingleStep.of_not_break {indent : Nat} {atLine : Bool} (hindent : indent ≠ 0)
    (hg : SingleGap atLine p (c :: t) g) (hc : isBreak c = false) (hprintable : isPrintable c = true)
    (hbefore : hasPair (· = ' ') isBreak (c :: t) = false) : SingleStep indent atLine p g c t := by
  obtain ⟨q, hcolumn, hline⟩ := hg.indentation hindent
  have hbody : ∀ r, readSingle? g p (singleBody indent atLine (c :: t) ++ r) =
      readSingle? g q ((if c = '\'' then ['\'', '\''] else [c]) ++
        (singleBody indent false t ++ r)) := by
    intro r
    rw [singleBody, if_neg (by simp [hc]), List.append_assoc, List.append_assoc, hline]
  have hright : ∀ n, (q.right (n + 1)).column ≠ 0 := fun n => Nat.succ_ne_zero _
  by_cases hquote : c = '\''
  · subst hquote
    refine ⟨g.text ++ ['\''], false, q.right 2, .empty, .empty (hright 1), List.append_nil _, ?_⟩
    intro r
    rw [hbody, if_pos rfl, List.cons_append, List.singleton_append, readSingle?]
  by_cases hspace : c = ' '
  · subst hspace
    cases g with
    | breaks first more => exact absurd rfl hg.2.1
    | blanks b =>
      have hgap : SingleGap false (q.right 1) t (.blanks (b ++ [' '])) := by
        refine ⟨rfl, hright 0, fun _ d hd => ?_⟩
        obtain ⟨t', rfl⟩ := List.head?_eq_some_iff.1 (Option.mem_def.1 hd)
        rw [hasPair_cons_cons] at hbefore
        simpa using (Bool.or_eq_false_iff.1 hbefore).1
      have hadd : (Gap.blanks b).add ' ' = .blanks (b ++ [' ']) := rfl
      refine ⟨[], false, q.right 1, .blanks (b ++ [' ']), hgap, rfl, fun r => ?_⟩
      rw [hbody, if_neg hquote, List.singleton_append, readSingle?_white hquote rfl, hadd,
        after_of_not_isBreak hc, prepend_nil]
  · have hblank : isBlank c = false := by
      rw [isBlank_of_printable hprintable]
      simp [hspace]
    refine ⟨g.text ++ [c], false, q.right 1, .empty, .empty (hright 0), List.append_nil _, ?_⟩
    intro r
    rw [hbody, if_neg hquote, List.singleton_append, readSingle?_text hquote hc hblank hcolumn]

/-- **Text between single quotes is read as it was written.** -/
theorem readSingle?_singleBody {indent : Nat} {atLine : Bool} (hindent : indent ≠ 0)
    (hprintable : ∀ c ∈ t, isPrintable c = true) (hn : '\n' ∉ t)
    (hbehind : hasPair isBreak (· = ' ') t = false) (hbefore : hasPair (· = ' ') isBreak t = false)
    (hg : SingleGap atLine p t g) (hr : r.head? ≠ some '\'') :
    ∃ q, readSingle? g p (singleBody indent atLine t ++ '\'' :: r) = some (g.text ++ t, ⟨r, q⟩) := by
  -- along the text, which is read into the gap up to the next character that is not white
  induction t generalizing g p atLine with
  | nil =>
    cases g with
    | blanks b =>
      obtain ⟨rfl, -⟩ := hg
      exact ⟨_, by rw [List.append_nil]; exact readSingle?_end hr⟩
    | breaks first more =>
      obtain ⟨rfl, -⟩ := hg
      refine ⟨(p.right indent).right 1, ?_⟩
      rw [singleBody, if_pos rfl, readSingle?_spaces, readSingle?_end hr, List.append_nil]
  | cons c t ih =>
    rw [List.forall_mem_cons] at hprintable
    rw [List.mem_cons, not_or] at hn
    have hstep : SingleStep indent atLine p g c t := by
      cases hbreak : isBreak c with
      | true => exact .of_break hg hbreak (Ne.symm hn.1) hbehind
      | false => exact .of_not_break hindent hg hbreak hprintable.1 hbefore
    obtain ⟨piece, atLine', q, g', hgap, hpiece, hread⟩ := hstep
    obtain ⟨q', hrest⟩ :=
      ih hprintable.2 hn.2 (hasPair_of_cons hbehind) (hasPair_of_cons hbefore) hgap
    refine ⟨q', ?_⟩
    rw [hread, hrest, prepend_some, ← List.append_assoc, hpiece, List.append_assoc]
    rfl

/-! ## Escapes -/

/-- The value of a hexadecimal digit. -/
def hexDigit? (c : Char) : Option Nat :=
  if c.isDigit then some (c.toNat - 48)
  else if 'a' ≤ c ∧ c ≤ 'f' then some (c.toNat - 87)
  else if 'A' ≤ c ∧ c ≤ 'F' then some (c.toNat - 55)
  else none

theorem hexDigit?_digitChar {d : Nat} (h : d < 16) :
    hexDigit? (Nat.digitChar d).toUpper = some d := by
  have hall : (List.range 16).all (fun d => hexDigit? (Nat.digitChar d).toUpper == some d) = true := by
    decide +kernel
  simpa using List.all_eq_true.1 hall d (List.mem_range.2 h)

theorem foldl_digits (k n v : Nat) :
    ((List.range k).reverse.map fun i => n / 16 ^ i % 16).foldl (fun v d => 16 * v + d) v =
      v * 16 ^ k + n % 16 ^ k := by
  induction k generalizing v with
  | zero => simp [Nat.mod_one]
  | succ k ih =>
    rw [List.range_succ, List.reverse_append, List.map_append, List.foldl_append, ih,
      Nat.pow_succ, Nat.mod_mul]
    simp only [List.reverse_singleton, List.map_singleton, List.foldl_cons, List.foldl_nil]
    ring

theorem hexValue?_hexDigits (k n : Nat) : hexValue? (hexDigits k n) = some (n % 16 ^ k) := by
  have hdigits : (hexDigits k n).mapM hexDigit? =
      some ((List.range k).reverse.map fun i => n / 16 ^ i % 16) := by
    rw [hexDigits, List.mapM_map]
    have hpure : (fun i => hexDigit? (Nat.digitChar (n / Nat.pow 16 i % 16)).toUpper) =
        fun i => (pure (n / 16 ^ i % 16) : Option Nat) :=
      funext fun i => hexDigit?_digitChar (Nat.mod_lt _ (by decide))
    exact (congrArg (fun f => ((List.range k).reverse).mapM f) hpure).trans List.mapM_pure
  have hvalue := foldl_digits k n 0
  rw [Nat.zero_mul, Nat.zero_add] at hvalue
  have hfold : hexValue? (hexDigits k n) =
      ((hexDigits k n).mapM hexDigit?).map fun ds => ds.foldl (fun v d => 16 * v + d) 0 := by
    rw [hexValue?, Option.map_eq_bind]
    rfl
  rw [hfold, hdigits, Option.map_some, hvalue]

/-- A character is read from its hexadecimal digits. -/
theorem hexChar?_hexDigits {k : Nat} (h : c.toNat < 16 ^ k) :
    hexChar? (hexDigits k c.toNat) = some c := by
  have hvalid : c.toNat.isValidChar := c.valid
  rw [hexChar?, hexValue?_hexDigits, Nat.mod_eq_of_lt h, Option.bind_eq_bind, Option.bind_some,
    if_pos hvalid, Char.ofNat_toNat]

/-- A character is read from its short escape, which is no hexadecimal one. -/
theorem escaped?_escapeLetter? {letter : Char} (h : escapeLetter? c = some letter) :
    escaped? letter = some c ∧ letter ∉ ['x', 'u', 'U'] ∧ isBreak letter = false ∧
      isPrintable letter = true := by
  obtain ⟨before, after, htable, -⟩ := List.lookup_eq_some_iff.1 h
  have hall : (([('\x00', '0'), ('\x07', 'a'), ('\x08', 'b'), ('\t', 't'), ('\n', 'n'), ('\x0b', 'v'),
      ('\x0c', 'f'), ('\r', 'r'), ('\x1b', 'e'), ('"', '"'), ('\\', '\\'), ('\u0085', 'N'),
      ('\u00a0', '_'), ('\u2028', 'L'), ('\u2029', 'P')] : List (Char × Char)).all fun e =>
        escaped? e.2 == some e.1 && decide (e.2 ∉ ['x', 'u', 'U']) && !isBreak e.2 &&
          isPrintable e.2) = true := by
    decide +kernel
  rw [htable] at hall
  simpa [and_assoc] using List.all_eq_true.1 hall (c, letter) (by simp)

/-! ## Double quotes -/

/-- A character that is neither a quote nor a backslash. -/
theorem readDouble?_cons (hq : c ≠ '"') (hs : c ≠ '\\') :
    readDouble? g p (c :: r) =
      if isBreak c || isBlank c then readDouble? (g.add c) (p.after c) r
      else if atMarker p (c :: r) then none
      else prepend (g.text ++ [c]) (readDouble? .empty (p.after c) r) :=
  readDouble?.eq_7 _ _ _ _ hq (by simp [hs]) (by simp [hs]) (by simp [hs]) (by simp [hs])

theorem readDouble?_white (hq : c ≠ '"') (hs : c ≠ '\\') (hc : (isBreak c || isBlank c) = true) :
    readDouble? g p (c :: r) = readDouble? (g.add c) (p.after c) r := by
  rw [readDouble?_cons hq hs, if_pos hc]

theorem readDouble?_text (hq : c ≠ '"') (hs : c ≠ '\\') (hbreak : isBreak c = false)
    (hblank : isBlank c = false) (hp : p.column ≠ 0) :
    readDouble? g p (c :: r) = prepend (g.text ++ [c]) (readDouble? .empty (p.right 1) r) := by
  rw [readDouble?_cons hq hs, if_neg (by simp [hbreak, hblank]), if_neg (by simp [atMarker, hp]),
    after_of_not_isBreak hbreak]

theorem readDouble?_escape {letter : Char} (hx : letter ∉ ['x', 'u', 'U'])
    (hbreak : isBreak letter = false) (hc : escaped? letter = some c) :
    readDouble? g p ('\\' :: letter :: r) =
      prepend (g.text ++ [c]) (readDouble? .empty (p.right 2) r) := by
  simp only [List.mem_cons, List.not_mem_nil, or_false, not_or] at hx
  rw [readDouble?.eq_6 _ _ _ _ (by simp [hx.1]) (by simp [hx.2.1]) (by simp [hx.2.2]),
    if_neg (by simp [hbreak]), hc]
  rfl

/-- A character that is written as its number. -/
theorem readDouble?_number (hplain : ¬ (isPrintable c && !isBreak c && c ≠ '"' && c ≠ '\\') = true)
    (hletter : escapeLetter? c = none) :
    ∃ n, ∀ r, readDouble? g p (doubleChar c ++ r) =
      prepend (g.text ++ [c]) (readDouble? .empty (p.right (n + 1)) r) := by
  have hlt : c.toNat < 0x110000 := by
    have hvalid := c.valid
    simp only [UInt32.isValidChar, Nat.isValidChar] at hvalid
    show c.val.toNat < _
    omega
  rw [doubleChar, if_neg hplain, hletter]
  by_cases htwo : c.toNat ≤ 0xFF
  · have hc : hexChar? (hexDigits 2 c.toNat) = some c := hexChar?_hexDigits (by omega)
    refine ⟨3, fun r => ?_⟩
    simp only [if_pos htwo]
    exact (readDouble?.eq_3 ..).trans (congrArg (Option.bind · _) hc)
  by_cases hfour : c.toNat ≤ 0xFFFF
  · have hc : hexChar? (hexDigits 4 c.toNat) = some c := hexChar?_hexDigits (by omega)
    refine ⟨5, fun r => ?_⟩
    simp only [if_neg htwo, if_pos hfour]
    exact (readDouble?.eq_4 ..).trans (congrArg (Option.bind · _) hc)
  · have hc : hexChar? (hexDigits 8 c.toNat) = some c := hexChar?_hexDigits (by omega)
    refine ⟨9, fun r => ?_⟩
    simp only [if_neg htwo, if_neg hfour]
    exact (readDouble?.eq_5 ..).trans (congrArg (Option.bind · _) hc)

/-- **A character between double quotes is read as it was written**: it becomes text, or it is the
last one of a new gap. -/
theorem readDouble?_doubleChar (b : Text) (hp : p.column ≠ 0) (c : Char) :
    ∃ piece b' q, Position.column q ≠ 0 ∧ piece ++ b' = b ++ [c] ∧
      ∀ r, readDouble? (.blanks b) p (doubleChar c ++ r) =
        prepend piece (readDouble? (.blanks b') q r) := by
  have hright : ∀ n, (p.right (n + 1)).column ≠ 0 := fun n => Nat.succ_ne_zero _
  by_cases hplain : (isPrintable c && !isBreak c && c ≠ '"' && c ≠ '\\') = true
  · have hchar : doubleChar c = [c] := by rw [doubleChar, if_pos hplain]
    simp only [Bool.and_eq_true, Bool.not_eq_true', decide_eq_true_eq] at hplain
    obtain ⟨⟨⟨hprintable, hbreak⟩, hq⟩, hs⟩ := hplain
    by_cases hspace : c = ' '
    · subst hspace
      refine ⟨[], b ++ [' '], p.right 1, hright 0, rfl, fun r => ?_⟩
      rw [hchar, prepend_nil, List.singleton_append, readDouble?_white hq hs rfl,
        after_of_not_isBreak hbreak]
      rfl
    · have hblank : isBlank c = false := by
        rw [isBlank_of_printable hprintable]
        simp [hspace]
      refine ⟨b ++ [c], [], p.right 1, hright 0, List.append_nil _, fun r => ?_⟩
      rw [hchar, List.singleton_append, readDouble?_text hq hs hbreak hblank hp]
      rfl
  · cases hletter : escapeLetter? c with
    | some letter =>
      obtain ⟨hc, hx, hbreak, -⟩ := escaped?_escapeLetter? hletter
      refine ⟨b ++ [c], [], p.right 2, hright 1, List.append_nil _, fun r => ?_⟩
      rw [doubleChar, if_neg hplain, hletter]
      exact readDouble?_escape hx hbreak hc
    | none =>
      obtain ⟨n, hread⟩ := readDouble?_number (g := .blanks b) (p := p) hplain hletter
      exact ⟨b ++ [c], [], p.right (n + 1), hright n, List.append_nil _, hread⟩

/-- **Text between double quotes is read as it was written.** -/
theorem readDouble?_flatMap (b : Text) (hp : p.column ≠ 0) (t r : Text) :
    ∃ q, readDouble? (.blanks b) p (t.flatMap doubleChar ++ '"' :: r) = some (b ++ t, ⟨r, q⟩) := by
  induction t generalizing b p with
  | nil => exact ⟨p.right 1, by rw [List.append_nil]; rfl⟩
  | cons c t ih =>
    obtain ⟨piece, b', q, hq, hpiece, hread⟩ := readDouble?_doubleChar b hp c
    obtain ⟨q', hrest⟩ := ih b' hq
    refine ⟨q', ?_⟩
    rw [List.flatMap_cons, List.append_assoc, hread, hrest, prepend_some, ← List.append_assoc,
      hpiece, List.append_assoc]
    rfl

end TexSymbols.Yaml
