import TexSymbols.Proofs.Yaml.Plain
import TexSymbols.Yaml.Block

/-!
# Literal blocks that were written are read back

* `Line.Whole` — a line with the break that ends it; `linesOf_append` — such lines are told apart.
* `literalBody_textOf` — what is written below the header: the lines, indented unless empty.
* `literalLines_spec` — the text of the lines, and the breaks behind it.
* `apply_chompingOf` — chomping leaves the breaks that the text has.
* `blockText?_indented`, `readBlock?_literal` — the block ends at the first line that is not
  indented, and its text is the one that was written.
-/

namespace TexSymbols.Yaml

variable {c : Char} {s t : Text} {l : Line} {ls : List Line}

/-! ## Lines -/

/-- A line that is ended by a break. -/
structure Line.Whole (l : Line) : Prop where
  unbroken : ∀ c ∈ l.content, isBreak c = false
  ending_eq : ∃ b, l.ending = [b] ∧ isBreak b = true

theorem textOf_cons (l : Line) (ls : List Line) :
    textOf (l :: ls) = l.content ++ l.ending ++ textOf ls := rfl

theorem linesOf_break (h : isBreak c = true) (t : Text) : linesOf (c :: t) = ⟨[], [c]⟩ :: linesOf t := by
  rw [linesOf, if_pos h]

theorem linesOf_text (h : isBreak c = false) (ht : linesOf t = l :: ls) :
    linesOf (c :: t) = ⟨c :: l.content, l.ending⟩ :: ls := by
  rw [linesOf, if_neg (by simp [h]), ht]

theorem linesOf_content_append {content : Text} (h : ∀ c ∈ content, isBreak c = false)
    (ht : linesOf t = l :: ls) : linesOf (content ++ t) = ⟨content ++ l.content, l.ending⟩ :: ls := by
  induction content with
  | nil => exact ht
  | cons c content ih =>
    rw [List.forall_mem_cons] at h
    exact linesOf_text h.1 (ih h.2)

/-- Whole lines are told apart, whatever follows them. -/
theorem linesOf_append (h : ∀ l ∈ ls, l.Whole) (s : Text) :
    linesOf (textOf ls ++ s) = ls ++ linesOf s := by
  induction ls with
  | nil => rfl
  | cons l ls ih =>
    rw [List.forall_mem_cons] at h
    obtain ⟨hunbroken, b, hending, hb⟩ := h.1
    have hrest := linesOf_break hb (textOf ls ++ s)
    have hline := linesOf_content_append hunbroken hrest
    rw [textOf_cons, hending, List.append_assoc, List.append_assoc, List.singleton_append, hline,
      ih h.2, List.append_nil, ← hending]
    rfl

theorem textOf_linesOf (t : Text) : textOf (linesOf t) = t := by
  fun_induction linesOf t with
  | case1 => rfl
  | case2 c t _ ih => rw [textOf_cons, ih]; rfl
  | case3 c t _ hlines ih =>
    rw [hlines] at ih
    rw [← ih]
    rfl
  | case4 c t _ l ls hlines ih =>
    rw [hlines] at ih
    rw [textOf_cons, List.cons_append, List.cons_append, ← textOf_cons, ih]

/-- A text that ends in a break consists of whole lines. -/
theorem whole_of_mem_linesOf (ht : t.getLast?.any isBreak = true) : ∀ l ∈ linesOf t, l.Whole := by
  fun_induction linesOf t with
  | case1 => simp
  | case2 c t hc ih =>
    refine List.forall_mem_cons.2 ⟨⟨by simp, c, rfl, hc⟩, ?_⟩
    cases t with
    | nil => simp [linesOf]
    | cons d t => exact ih (by rwa [List.getLast?_cons_cons] at ht)
  | case3 c t hc hlines _ =>
    have hnil : t = [] := by rw [← textOf_linesOf t, hlines]; rfl
    rw [hnil] at ht
    exact absurd ht hc
  | case4 c t hc l ls hlines ih =>
    have hne : t ≠ [] := by
      rintro rfl
      cases hlines
    obtain ⟨d, t, rfl⟩ := List.exists_cons_of_ne_nil hne
    rw [List.getLast?_cons_cons] at ht
    have hall := ih ht
    rw [hlines, List.forall_mem_cons] at hall
    obtain ⟨⟨hunbroken, hending⟩, hls⟩ := hall
    rw [Bool.not_eq_true] at hc
    exact List.forall_mem_cons.2 ⟨⟨List.forall_mem_cons.2 ⟨hc, hunbroken⟩, hending⟩, hls⟩

/-! ## What is written -/

/-- The line as it stands in a block: indented unless it is empty. -/
def Line.indented (indent : Nat) (l : Line) : Line :=
  if l.content.isEmpty then l else ⟨spaces indent ++ l.content, l.ending⟩

theorem Line.Whole.indented (h : l.Whole) (indent : Nat) : (l.indented indent).Whole := by
  unfold Line.indented
  split
  · exact h
  · refine ⟨fun c hc => ?_, h.ending_eq⟩
    rcases List.mem_append.1 hc with hc | hc
    · rw [List.eq_of_mem_replicate hc]
      rfl
    · exact h.unbroken c hc

theorem literalBody_content (indent : Nat) {content : Text} (h : ∀ c ∈ content, isBreak c = false)
    (hc : isBreak c = true) (t : Text) :
    literalBody indent false (content ++ c :: t) = content ++ c :: literalBody indent true t := by
  induction content with
  | nil => rw [List.nil_append, literalBody, if_pos hc, List.nil_append]
  | cons d content ih =>
    rw [List.forall_mem_cons] at h
    rw [List.cons_append, literalBody, if_neg (by simp [h.1]), if_neg (by simp), ih h.2]
    rfl

/-- Below the header stand the lines, indented unless they are empty. -/
theorem literalBody_textOf (indent : Nat) (h : ∀ l ∈ ls, l.Whole) :
    literalBody indent true (textOf ls) = textOf (ls.map (Line.indented indent)) := by
  induction ls with
  | nil => rfl
  | cons l ls ih =>
    rw [List.forall_mem_cons] at h
    obtain ⟨hunbroken, b, hending, hb⟩ := h.1
    rw [List.map_cons, textOf_cons, textOf_cons, ← ih h.2]
    obtain ⟨content, ending⟩ := l
    obtain rfl : ending = [b] := hending
    cases content with
    | nil => exact (by rw [literalBody, if_pos hb] : literalBody indent true (b :: textOf ls) = _)
    | cons c content =>
      rw [List.forall_mem_cons] at hunbroken
      have hrest := literalBody_content indent hunbroken.2 hb (textOf ls)
      simp only [List.append_assoc, List.cons_append, List.nil_append, literalBody, hunbroken.1,
        hrest, Line.indented]
      simp

theorem literalBody_append_break (indent : Nat) (atLine : Bool) (hc : isBreak c = true) (t : Text) :
    literalBody indent atLine (t ++ [c]) = literalBody indent atLine t ++ [c] := by
  induction t generalizing atLine with
  | nil => simp [literalBody, hc]
  | cons d t ih =>
    rw [List.cons_append, literalBody, literalBody]
    split
    · rw [ih, List.cons_append]
    · rw [ih, List.append_assoc, List.cons_append]

theorem getLast?_literalBody (indent : Nat) (atLine : Bool) (t : Text) :
    (literalBody indent atLine t).getLast? = t.getLast? := by
  induction t generalizing atLine with
  | nil => rfl
  | cons c t ih =>
    have hrest := ih (isBreak c)
    rw [literalBody]
    cases hc : isBreak c with
    | true => rw [hc] at hrest; simp [List.getLast?_cons, hrest]
    | false => rw [hc] at hrest; simp [List.getLast?_append, List.getLast?_cons, hrest]

/-- What is written of a text that is not empty ends in a break once it is ended as a line. -/
theorem endLine_literal (header : Text) (indent : Nat) (ht : t ≠ []) :
    endLine (header ++ literalBody indent true t) = header ++ literalBody indent true (endLine t) := by
  have hlast : (header ++ literalBody indent true t).getLast? = t.getLast? := by
    rw [List.getLast?_append, getLast?_literalBody]
    cases h : t.getLast? with
    | none => exact absurd (List.getLast?_eq_none_iff.1 h) ht
    | some c => rfl
  have hfeed : ("\n" : Text) = ['\n'] := rfl
  unfold endLine
  rw [hlast]
  split
  · rfl
  · rw [hfeed, literalBody_append_break indent true isBreak_newline, List.append_assoc]

/-! ## What is read of the lines -/

/-- What was read of lines: the text up to its last character that is no break, and the breaks
behind it. -/
structure LiteralSpec (t text ending : Text) : Prop where
  append_eq : text ++ ending = t
  ending_breaks : ∀ c ∈ ending, isBreak c = true
  text_last : ∀ c ∈ text.getLast?, isBreak c = false

theorem literalLines_spec (h : ∀ l ∈ ls, l.Whole) :
    LiteralSpec (textOf ls) (literalLines ls).1 (literalLines ls).2 := by
  induction ls with
  | nil => exact ⟨rfl, by simp [literalLines], by simp [literalLines]⟩
  | cons l ls ih =>
    rw [List.forall_mem_cons] at h
    obtain ⟨hunbroken, b, hending, hb⟩ := h.1
    obtain ⟨happend, hbreaks, hlast⟩ := ih h.2
    rw [textOf_cons, ← happend, literalLines]
    generalize literalLines ls = read at hbreaks hlast ⊢
    obtain ⟨text, ending⟩ := read
    have hbreaks' : ∀ c ∈ l.ending ++ ending, isBreak c = true := by
      rw [hending]
      exact List.forall_mem_cons.2 ⟨hb, hbreaks⟩
    cases text with
    | nil =>
      simp only [List.isEmpty_nil, if_true]
      split
      · rename_i hcontent
        exact ⟨by simp [List.isEmpty_iff.1 hcontent], hbreaks', by simp⟩
      · exact ⟨by simp, hbreaks', fun c hc => hunbroken c (List.mem_of_getLast? hc)⟩
    | cons d text =>
      refine ⟨by simp, hbreaks, fun c hc => hlast c ?_⟩
      simpa [List.getLast?_append, List.getLast?_cons] using hc

/-- There is one way to take the breaks off the end of a text. -/
theorem LiteralSpec.unique {text ending text' ending' : Text} (h : LiteralSpec t text ending)
    (h' : LiteralSpec t text' ending') : text = text' ∧ ending = ending' := by
  have hnil : ∀ {text ending text' ending' : Text}, LiteralSpec t text ending →
      LiteralSpec t text' ending' → ∀ more, text' = text ++ more → ending = more ++ ending' →
      more = [] := by
    intro text ending text' ending' h h' more htext hending
    by_contra hne
    have hlast := List.getLast?_eq_some_getLast hne
    have hno := h'.text_last _ (by rw [htext, List.getLast?_append, hlast]; rfl)
    have hyes := h.ending_breaks (more.getLast hne) (by simp [hending])
    rw [hno] at hyes
    cases hyes
  have heq := h.append_eq.trans h'.append_eq.symm
  rcases List.append_eq_append_iff.1 heq with ⟨more, htext, hending⟩ | ⟨more, htext, hending⟩
  · obtain rfl := hnil h h' more htext hending
    exact ⟨by simpa using htext.symm, by simpa using hending⟩
  · obtain rfl := hnil h' h more htext hending
    exact ⟨by simpa using htext, by simpa using hending.symm⟩

/-- How a block is chomped whose text is `t`. -/
def chompingOf (t : Text) : Chomping :=
  match t.reverse with
  | [] => .strip
  | c :: r => if !isBreak c then .strip else if r.head?.all isBreak then .keep else .clip

theorem chompingOf_concat (t : Text) (c : Char) : chompingOf (t ++ [c]) =
    if !isBreak c then .strip else if t.getLast?.all isBreak then .keep else .clip := by
  simp only [chompingOf, List.reverse_append, List.reverse_singleton, List.singleton_append,
    List.head?_reverse]

/-- **Chomping leaves the breaks that the text has.** -/
theorem apply_chompingOf {text ending : Text} (ht : t ≠ [])
    (h : LiteralSpec (endLine t) text ending) : (chompingOf t).apply text ending = t := by
  obtain ⟨before, c, rfl⟩ := (List.eq_nil_or_concat' t).resolve_left ht
  have hend : endLine (before ++ [c]) =
      if isBreak c then before ++ [c] else before ++ [c] ++ ['\n'] := by
    rw [endLine, List.getLast?_concat]
    rfl
  rw [hend] at h
  rw [chompingOf_concat]
  cases hc : isBreak c with
  | false =>
    -- the feed was added behind the text
    rw [hc] at h
    have hspec : LiteralSpec (before ++ [c] ++ ['\n']) (before ++ [c]) ['\n'] :=
      ⟨rfl, by simp [isBreak_newline], by simp [hc]⟩
    obtain ⟨rfl, rfl⟩ := h.unique hspec
    rfl
  | true =>
    rw [hc, if_pos rfl] at h
    cases hbefore : before.getLast?.all isBreak with
    | true => exact h.append_eq
    | false =>
      -- exactly one break ends the text
      obtain ⟨d, hd, hd'⟩ : ∃ d, before.getLast? = some d ∧ isBreak d = false := by
        cases hlast : before.getLast? with
        | none => simp [hlast] at hbefore
        | some d => exact ⟨d, rfl, by simpa [hlast] using hbefore⟩
      have hspec : LiteralSpec (before ++ [c]) before [c] :=
        ⟨rfl, by simp [hc], fun e he => by rw [hd] at he; cases he; exact hd'⟩
      obtain ⟨rfl, rfl⟩ := h.unique hspec
      have hne : text ≠ [] := by
        rintro rfl
        cases hd
      simp [Chomping.apply, hne]

/-! ## The header -/

/-- The mark of the indentation: it is stated if the text begins with a space or a break. -/
def indentationMark (t : Text) : Text :=
  if t.head?.any fun c => c = ' ' || isBreak c then ['2'] else []

/-- The mark of a way to chomp. -/
def Chomping.mark : Chomping → Text
  | .strip => ['-']
  | .clip => []
  | .keep => ['+']

theorem literalHeader_eq (t : Text) :
    literalHeader t = '|' :: (indentationMark t ++ (chompingOf t).mark) ++ ['\n'] := by
  unfold literalHeader indentationMark chompingOf
  have hbar : ("|" : Text) = ['|'] := rfl
  have hfeed : ("\n" : Text) = ['\n'] := rfl
  rw [hbar, hfeed]
  cases t.reverse with
  | nil => cases t <;> simp [Chomping.mark]
  | cons c r => simp only [apply_ite Chomping.mark]; rfl

/-- The marks are read as they were written. -/
theorem readMarks_marks (t : Text) (chomping : Chomping) :
    readMarks ⟨false, none, .clip⟩ (indentationMark t ++ chomping.mark) =
      (⟨false, if (indentationMark t).isEmpty then none else some 2, chomping⟩, []) := by
  unfold indentationMark
  split <;> cases chomping <;> rfl

theorem isBreak_of_mem_marks {t : Text} {chomping : Chomping}
    (h : c ∈ '|' :: (indentationMark t ++ chomping.mark)) : isBreak c = false := by
  have hall : ('|' :: (indentationMark t ++ chomping.mark)).all (!isBreak ·) = true := by
    unfold indentationMark
    split <;> cases chomping <;> rfl
  simpa using List.all_eq_true.1 hall c h

/-! ## Reading a block -/

theorem spaces_takeWhile (n : Nat) (hc : c ≠ ' ') (s : Text) :
    (spaces n ++ c :: s).takeWhile (· = ' ') = spaces n := by
  rw [List.takeWhile_append_of_pos (by simp [spaces]), List.takeWhile_cons_of_neg (by simp [hc]),
    List.append_nil]

theorem spaces_dropWhile (n : Nat) (hc : c ≠ ' ') (s : Text) :
    (spaces n ++ c :: s).dropWhile (· = ' ') = c :: s := by
  rw [List.dropWhile_append_of_pos (by simp [spaces]), List.dropWhile_cons_of_neg (by simp [hc])]

theorem length_spaces (n : Nat) : (spaces n).length = n := List.length_replicate

theorem linesOf_cons (hc : isBreak c = false) (t : Text) :
    ∃ content ending ls, linesOf (c :: t) = ⟨c :: content, ending⟩ :: ls := by
  cases ht : linesOf t with
  | nil => exact ⟨[], [], [], by rw [linesOf, if_neg (by simp [hc]), ht]⟩
  | cons l ls => exact ⟨l.content, l.ending, ls, linesOf_text hc ht⟩

/-- Whether a line belongs to a block with the indentation. -/
def isOwn (indent : Nat) (l : Line) : Bool := isEmptyWithin indent l || indent ≤ indentOf l

theorem isOwn_indented (indent : Nat) (l : Line) : isOwn indent (l.indented indent) = true := by
  unfold isOwn Line.indented
  split
  · rename_i h
    simp [isEmptyWithin, List.isEmpty_iff.1 h]
  · have hle : indent ≤ indentOf ⟨spaces indent ++ l.content, l.ending⟩ := by
      rw [indentOf, List.takeWhile_append_of_pos (by simp [spaces]), List.length_append,
        length_spaces]
      exact Nat.le_add_right ..
    simp [hle]

theorem drop_indented (indent : Nat) (l : Line) :
    (⟨(l.indented indent).content.drop indent, (l.indented indent).ending⟩ : Line) = l := by
  unfold Line.indented
  split
  · rename_i h
    obtain ⟨content, ending⟩ := l
    obtain rfl := List.isEmpty_iff.1 h
    rw [List.drop_nil]
  · simp [List.drop_left' (length_spaces indent)]

/-- A line that is not indented so far does not belong to the block, and it is not indented with a
tab. -/
theorem BeginsLine.head_linesOf {indent k : Nat} {r : Text} (h : BeginsLine k r) (hlt : k < indent) :
    ∀ l ∈ (linesOf (spaces k ++ r)).head?, isOwn indent l = false ∧ hasTabIndent l = false := by
  intro l hl
  cases r with
  | nil =>
    rw [h.column_of_nil rfl] at hl
    cases hl
  | cons c r =>
    obtain ⟨hbreak, hblank, -⟩ := h.starts c rfl
    have hspace : c ≠ ' ' := by
      rintro rfl
      cases hblank
    have htab : c ≠ '\t' := by
      rintro rfl
      cases hblank
    obtain ⟨content, ending, ls, hline⟩ := linesOf_cons hbreak r
    have hspaces : ∀ c ∈ spaces k, isBreak c = false := fun c hc => by
      rw [List.eq_of_mem_replicate hc]
      rfl
    rw [linesOf_content_append hspaces hline] at hl
    obtain rfl := Option.some.inj hl
    constructor
    · have hindent : indentOf ⟨spaces k ++ c :: content, ending⟩ = k := by
        rw [indentOf, spaces_takeWhile k hspace, length_spaces]
      have hempty : isEmptyWithin indent ⟨spaces k ++ c :: content, ending⟩ = false := by
        simp [isEmptyWithin, hspace]
      rw [isOwn, hempty, hindent]
      simpa using hlt
    · rw [hasTabIndent, spaces_dropWhile k hspace]
      simpa using htab

/-- **The text of a block is that of its lines without their indentation.** -/
theorem blockText?_indented {indent k : Nat} {r : Text} {header : BlockHeader}
    (hfolded : header.folded = false) (hr : BeginsLine k r) (hk : k < indent) (ls : List Line) :
    blockText? header indent (ls.map (Line.indented indent) ++ linesOf (spaces k ++ r)) =
      some (header.chomping.apply (literalLines ls).1 (literalLines ls).2, ls.length) := by
  have hnone : (linesOf (spaces k ++ r)).takeWhile (isOwn indent) = [] := by
    cases hlines : linesOf (spaces k ++ r) with
    | nil => rfl
    | cons l more =>
      have hl := (hr.head_linesOf hk l (by rw [hlines]; rfl)).1
      rw [List.takeWhile_cons_of_neg (by simp [hl])]
  have hown : (ls.map (Line.indented indent) ++ linesOf (spaces k ++ r)).takeWhile (isOwn indent) =
      ls.map (Line.indented indent) := by
    rw [List.takeWhile_append_of_pos (by simp [isOwn_indented]), hnone, List.append_nil]
  have hown' : ((ls.map (Line.indented indent) ++ linesOf (spaces k ++ r)).takeWhile fun l =>
      isEmptyWithin indent l || indent ≤ indentOf l) = ls.map (Line.indented indent) := hown
  have hdrop : (ls.map (Line.indented indent) ++ linesOf (spaces k ++ r)).drop ls.length =
      linesOf (spaces k ++ r) := List.drop_left' (List.length_map _)
  have htab : (linesOf (spaces k ++ r)).head?.any hasTabIndent = false := by
    cases hhead : (linesOf (spaces k ++ r)).head? with
    | none => rfl
    | some l => exact (hr.head_linesOf hk l hhead).2
  have hbody : ((ls.map (Line.indented indent)).map fun l =>
      { l with content := l.content.drop indent }) = ls := by
    rw [List.map_map]
    exact List.map_id'' (drop_indented indent) ls
  unfold blockText?
  simp only [hown', List.length_map, hdrop, htab, hbody, hfolded, Bool.false_eq_true, if_false]

/-- The indentation of a block shows in its first line if that is not empty and begins with text. -/
theorem detectIndent?_cons {indent least : Nat} (hleast : max least 1 ≤ indent) (hc : c ≠ ' ')
    (htab : c ≠ '\t') (s e : Text) (ls : List Line) :
    detectIndent? least (⟨spaces indent ++ c :: s, e⟩ :: ls) = some indent := by
  have hall : (spaces indent ++ c :: s).all (· = ' ') = false := by simp [hc]
  have hindent : indentOf ⟨spaces indent ++ c :: s, e⟩ = indent := by
    rw [indentOf, spaces_takeWhile indent hc, length_spaces]
  have hnone : hasTabIndent ⟨spaces indent ++ c :: s, e⟩ = false := by
    rw [hasTabIndent, spaces_dropWhile indent hc]
    simpa using htab
  simp [detectIndent?, hall, hindent, hnone, hleast]

theorem getLast?_endLine (t : Text) : (endLine t).getLast?.any isBreak = true := by
  unfold endLine
  split
  · assumption
  · rw [List.getLast?_append]
    rfl

theorem endLine_cons (c : Char) (t : Text) : ∃ t', endLine (c :: t) = c :: t' := by
  unfold endLine
  split
  · exact ⟨t, rfl⟩
  · exact ⟨t ++ "\n", rfl⟩

/-- Behind a break a line begins. -/
theorem foldl_after_of_break (ht : t.getLast?.any isBreak = true) (p : Position) :
    ∃ line, t.foldl Position.after p = ⟨line, 0⟩ := by
  rcases List.eq_nil_or_concat' t with rfl | ⟨before, c, rfl⟩
  · cases ht
  · have hc : isBreak c = true := by rwa [List.getLast?_concat] at ht
    refine ⟨(before.foldl Position.after p).line + 1, ?_⟩
    rw [List.foldl_append, List.foldl_cons, List.foldl_nil, Position.after, if_pos hc]

theorem detectIndent?_literal {margin : Nat} (hne : t ≠ [])
    (hprintable : ∀ c ∈ t, isPrintable c = true) (hmark : (indentationMark t).isEmpty = true)
    (more : List Line) :
    detectIndent? margin ((linesOf (endLine t)).map (Line.indented (margin + 1)) ++ more) =
      some (margin + 1) := by
  obtain ⟨c, t, rfl⟩ := List.exists_cons_of_ne_nil hne
  have hfirst : c ≠ ' ' ∧ isBreak c = false := by
    simpa [indentationMark, apply_ite List.isEmpty] using hmark
  have htab : c ≠ '\t' := by
    rintro rfl
    cases hprintable '\t' List.mem_cons_self
  obtain ⟨t', hend⟩ := endLine_cons c t
  obtain ⟨content, ending, ls, hlines⟩ := linesOf_cons hfirst.2 t'
  rw [hend, hlines]
  exact detectIndent?_cons (by omega) hfirst.1 htab _ _ _

theorem readBlock?_of {margin indent count : Nat} {cursor : Cursor} {first : Line}
    {below : List Line} {header : BlockHeader} {text : Text}
    (hlines : linesOf cursor.rest = first :: below)
    (hmarks : readMarks ⟨first.content.head? = some '>', none, .clip⟩ first.content.tail = (header, []))
    (hindent : header.indentation.elim (detectIndent? margin below) (some <| · + (margin - 1)) =
      some indent)
    (htext : blockText? header indent below = some (text, count)) :
    readBlock? margin cursor = some (text, cursor.pass (textOf (first :: below.take count))) := by
  have hrest : isRestBlank [] = true := rfl
  unfold readBlock?
  simp only [hlines, hmarks, hrest, Bool.not_true, Bool.false_eq_true, if_false]
  cases hstated : header.indentation with
  | none =>
    rw [hstated] at hindent
    rw [Option.elim_none] at hindent
    simp [hindent, htext]
  | some n =>
    rw [hstated] at hindent
    obtain rfl := Option.some.inj hindent
    simp [htext]

theorem printable_of_literalAllowed (h : literalAllowed t = true) :
    ∀ c ∈ t, isPrintable c = true := by
  rw [literalAllowed, Bool.and_eq_true] at h
  simpa [isUnprintable] using h.2

/-- **A literal block is read as it was written.** -/
theorem readBlock?_literal {margin k : Nat} {r : Text} (hmargin : margin ≠ 0)
    (hbreak : '\n' ∈ t) (ht : literalAllowed t = true) (hr : BeginsLine k r) (hk : k ≤ margin)
    (p : Position) :
    ∃ line, readBlock? margin
        ⟨endLine (literalHeader t ++ literalBody (margin + 1) true t) ++ (spaces k ++ r), p⟩ =
      some (t, ⟨spaces k ++ r, ⟨line, 0⟩⟩) := by
  have hne := List.ne_nil_of_mem hbreak
  have hprintable := printable_of_literalAllowed ht
  have hwhole := whole_of_mem_linesOf (getLast?_endLine t)
  have htext := textOf_linesOf (endLine t)
  have hindent : (if (indentationMark t).isEmpty then none else some 2 : Option Nat).elim
      (detectIndent? margin ((linesOf (endLine t)).map (Line.indented (margin + 1)) ++
        linesOf (spaces k ++ r))) (fun n => some (n + (margin - 1))) = some (margin + 1) := by
    cases hmark : (indentationMark t).isEmpty with
    | true => exact detectIndent?_literal hne hprintable hmark _
    | false => exact congrArg some (show 2 + (margin - 1) = margin + 1 by omega)
  have hspec := literalLines_spec hwhole
  rw [htext] at hspec
  generalize linesOf (endLine t) = ls at hwhole htext hindent hspec
  have hbody : literalBody (margin + 1) true (endLine t) =
      textOf (ls.map (Line.indented (margin + 1))) := by
    rw [← htext, literalBody_textOf _ hwhole]
  let first : Line := ⟨'|' :: (indentationMark t ++ (chompingOf t).mark), ['\n']⟩
  let own := ls.map (Line.indented (margin + 1))
  have hown : ∀ l ∈ first :: own, l.Whole :=
    List.forall_mem_cons.2 ⟨⟨fun c hc => isBreak_of_mem_marks hc, '\n', rfl, rfl⟩,
      by simpa [own] using fun l hl => (hwhole l hl).indented _⟩
  have hwritten : endLine (literalHeader t ++ literalBody (margin + 1) true t) =
      textOf (first :: own) := by
    rw [endLine_literal _ _ hne, literalHeader_eq, hbody]
    rfl
  have hlines : linesOf (textOf (first :: own) ++ (spaces k ++ r)) =
      first :: (own ++ linesOf (spaces k ++ r)) := linesOf_append hown _
  have hread : readBlock? margin ⟨textOf (first :: own) ++ (spaces k ++ r), p⟩ = _ :=
    readBlock?_of hlines (readMarks_marks t (chompingOf t)) hindent
      (blockText?_indented rfl hr (Nat.lt_succ_of_le hk) ls)
  have htake : (own ++ linesOf (spaces k ++ r)).take ls.length = own :=
    List.take_left' (List.length_map _)
  have hdrop : (textOf (first :: own) ++ (spaces k ++ r)).drop (textOf (first :: own)).length =
      spaces k ++ r := List.drop_left
  obtain ⟨line, hline⟩ := foldl_after_of_break
    (getLast?_endLine (literalHeader t ++ literalBody (margin + 1) true t)) p
  rw [hwritten] at hline
  refine ⟨line, ?_⟩
  rw [hwritten, hread, htake, apply_chompingOf hne hspec, Cursor.pass, hdrop, hline]

end TexSymbols.Yaml
