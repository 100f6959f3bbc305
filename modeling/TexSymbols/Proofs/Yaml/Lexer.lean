import Mathlib.Data.List.TakeWhile
import TexSymbols.Proofs.Yaml.Plain
import TexSymbols.Yaml.Token.Stream

/-!
# Tokens of what was written

A text in block style is lexed from its end: what stands in front of a rest puts tokens in front of
those of the rest.

* `Lexer.Yields` — reading on to the end gives certain tokens; `Yields.of_next?` — one step.
* `Lexes` — the same between two tokens of block style, wherever the rest stands in the text.
* `Lexes.newline`, `Lexes.spaces`, `Lexes.comment`, `Lexes.close`, `Lexes.nil` — white space, the
  ends of collections, and the end of the text.
* `Lexes.entry`, `Lexes.question`, `Lexes.colon` — marks; `Lexes.key`, `Lexes.plain` — plain text
  as a key, or on a line of its own.
-/

namespace TexSymbols.Yaml

variable {l l' : Lexer} {ts : List Token}

namespace Lexer

/-- Reading on to the end gives the tokens. -/
def Yields (l : Lexer) (ts : List Token) : Prop :=
  ∀ n, l.cursor.rest.length < n → l.readAll? n = some ts

/-- One more token, which is not the last one. -/
theorem Yields.of_next? (h : l.next? = some l') (hback : l'.tokens.back? ≠ some .streamEnd)
    (hlt : l'.cursor.rest.length < l.cursor.rest.length) (hrest : l'.Yields ts) : l.Yields ts := by
  intro n hn
  cases n with
  | zero => exact absurd hn (Nat.not_lt_zero _)
  | succ n =>
    rw [readAll?, h, Option.bind_eq_bind, Option.bind_some, if_neg hback]
    exact hrest n (by omega)

/-- The last token. -/
theorem Yields.of_last (h : l.next? = some l') (hback : l'.tokens.back? = some .streamEnd) :
    l.Yields l'.tokens.toList := by
  intro n hn
  cases n with
  | zero => exact absurd hn (Nat.not_lt_zero _)
  | succ n =>
    rw [readAll?, h, Option.bind_eq_bind, Option.bind_some, if_pos hback]
    rfl

/-- Two states with the same next token yield the same. -/
theorem Yields.of_next?_eq (h : l.next? = l'.next?)
    (hle : l'.cursor.rest.length ≤ l.cursor.rest.length) (hrest : l'.Yields ts) : l.Yields ts := by
  intro n hn
  cases n with
  | zero => exact absurd hn (Nat.not_lt_zero _)
  | succ n =>
    have hl := hrest (n + 1) (by omega)
    rw [readAll?, ← h] at hl
    rwa [readAll?]

end Lexer

/-! ## Between tokens -/

variable {allowed : Bool} {columns : List Nat} {column k : Nat} {r t : Text}

/-- In block style, where no key has begun, the rest has the tokens, whatever stands before it. -/
def Lexes (allowed : Bool) (columns : List Nat) (column : Nat) (rest : Text)
    (ts : List Token) : Prop :=
  ∀ line toks, Lexer.Yields ⟨⟨rest, ⟨line, column⟩⟩, allowed, none, [], columns, toks⟩
    (toks.toList ++ ts)

/-- A line feed begins a line, where a key may begin. -/
theorem Lexes.newline (h : Lexes true columns 0 r ts) :
    Lexes allowed columns column ('\n' :: r) ts := by
  intro line toks
  refine .of_next?_eq ?_ (Nat.le_succ _) (h (line + 1) toks)
  have hnext : toNextToken false allowed false ⟨line, column⟩ ('\n' :: r) =
      toNextToken false true false ⟨line + 1, 0⟩ r := by
    rw [toNextToken, if_pos isBreak_newline, Bool.not_false, Bool.or_true]
    rfl
  simp only [Lexer.next?, Lexer.inFlow, List.isEmpty_nil, Bool.not_true, hnext]

theorem Lexes.space (h : Lexes allowed columns (column + 1) r ts) :
    Lexes allowed columns column (' ' :: r) ts := by
  intro line toks
  refine .of_next?_eq ?_ (Nat.le_succ _) (h line toks)
  have hnext : toNextToken false allowed false ⟨line, column⟩ (' ' :: r) =
      toNextToken false allowed false ⟨line, column + 1⟩ r := by
    rw [toNextToken, if_neg (by simp [isBreak_space]), if_neg (by simp), if_pos (by simp)]
    rfl
  simp only [Lexer.next?, Lexer.inFlow, List.isEmpty_nil, Bool.not_true, hnext]

theorem Lexes.spaces (h : Lexes allowed columns (column + k) r ts) :
    Lexes allowed columns column (spaces k ++ r) ts := by
  induction k generalizing column with
  | zero => exact h
  | succ k ih => exact .space (ih (by rwa [Nat.add_assoc, Nat.add_comm 1]))

theorem toNextToken_comment (ht : ∀ c ∈ t, isBreak c = false) (p : Position) :
    toNextToken false allowed true p (t ++ '\n' :: r) =
      toNextToken false true false ⟨p.line + 1, 0⟩ r := by
  induction t generalizing p with
  | nil =>
    rw [List.nil_append, toNextToken, if_pos isBreak_newline, Bool.not_false, Bool.or_true]
    rfl
  | cons c t ih =>
    rw [List.forall_mem_cons] at ht
    rw [List.cons_append, toNextToken, if_neg (by simp [ht.1]), if_pos (by simp), ih ht.2,
      after_of_not_isBreak ht.1]
    rfl

/-- A comment goes on to the end of its line. -/
theorem Lexes.comment (ht : ∀ c ∈ t, isBreak c = false) (h : Lexes true columns 0 r ts) :
    Lexes allowed columns column ('#' :: (t ++ '\n' :: r)) ts := by
  intro line toks
  refine .of_next?_eq ?_ (by simp only [List.length_cons, List.length_append]; omega)
    (h (line + 1) toks)
  have hnext : toNextToken false allowed false ⟨line, column⟩ ('#' :: (t ++ '\n' :: r)) =
      toNextToken false true false ⟨line + 1, 0⟩ r := by
    rw [toNextToken, if_neg (by decide), if_pos (by simp), toNextToken_comment ht]
    rfl
  simp only [Lexer.next?, Lexer.inFlow, List.isEmpty_nil, Bool.not_true, hnext]

theorem toNextToken_of_startsToken (hr : StartsToken r) (p : Position) :
    toNextToken false allowed false p r = (allowed, ⟨r, p⟩) := by
  cases r with
  | nil => rfl
  | cons c r =>
    obtain ⟨hbreak, hblank, hsign, hmark⟩ := hr c rfl
    rw [isBlank, Bool.or_eq_false_iff, decide_eq_false_iff_not, decide_eq_false_iff_not] at hblank
    rw [toNextToken, if_neg (by simp [hbreak]), if_neg (by simp [hsign]),
      if_neg (by simp [hblank, hmark])]

/-- Before a token only collections end. -/
theorem Lexer.next?_of_startsToken (hflow : l.outerStarts = []) (hr : StartsToken l.cursor.rest)
    (hkey : l.expireKey? = some l) : l.next? = (l.closeBlocks (· ≤ l.cursor.column)).read? := by
  have hflow' : l.inFlow = false := by rw [Lexer.inFlow, hflow]; rfl
  rw [Lexer.next?, hflow', toNextToken_of_startsToken hr]
  exact congrArg (Option.bind · _) hkey

/-- No collection ends that stands far enough to the left. -/
theorem Lexer.closeBlocks_of_head {keep : Nat → Bool}
    (hkeep : ∀ c ∈ l.columns.head?, keep c = true) : l.closeBlocks keep = l := by
  have hnone : l.columns.takeWhile (!keep ·) = [] := by
    cases hcolumns : l.columns with
    | nil => rfl
    | cons c columns => rw [List.takeWhile_cons_of_neg (by simp [hkeep c (by rw [hcolumns]; rfl)])]
  rw [Lexer.closeBlocks, hnone]
  split
  · rfl
  · simp

/-- The innermost collection ends, and then others may. -/
theorem Lexer.closeBlocks_cons {keep : Nat → Bool} {c : Nat} {columns : List Nat}
    (hflow : l.outerStarts = []) (hcolumns : l.columns = c :: columns) (hc : keep c = false) :
    l.closeBlocks keep =
      { l with columns := columns, tokens := l.tokens.push .blockEnd }.closeBlocks keep := by
  have hflow' : l.inFlow = false := by rw [Lexer.inFlow, hflow]; rfl
  have hclosed : l.columns.takeWhile (!keep ·) = c :: columns.takeWhile (!keep ·) := by
    rw [hcolumns, List.takeWhile_cons_of_pos (by simp [hc])]
  have hflow'' : { l with columns := columns, tokens := l.tokens.push .blockEnd }.inFlow = false :=
    hflow'
  rw [Lexer.closeBlocks, Lexer.closeBlocks, hflow', hflow'', hclosed, hcolumns]
  simp

/-- A collection ends before a token that stands further to the left. -/
theorem Lexes.close {c : Nat} (hr : StartsToken r) (hc : column < c)
    (h : Lexes allowed columns column r ts) :
    Lexes allowed (c :: columns) column r (.blockEnd :: ts) := by
  intro line toks
  have hrest := h line (toks.push .blockEnd)
  rw [Array.toList_push, List.append_assoc, List.singleton_append] at hrest
  refine .of_next?_eq ?_ ?_ hrest
  · rw [Lexer.next?_of_startsToken rfl hr rfl,
      Lexer.closeBlocks_cons rfl rfl (decide_eq_false (Nat.not_le.2 hc))]
    exact (Lexer.next?_of_startsToken rfl hr rfl).symm
  · exact Nat.le_refl _

/-- At a token that stands at or behind the innermost collection, the token is read. -/
theorem Lexer.next?_eq_read? (hflow : l.outerStarts = []) (hr : StartsToken l.cursor.rest)
    (hkey : l.expireKey? = some l) (hcolumns : ∀ c ∈ l.columns.head?, c ≤ l.cursor.column) :
    l.next? = l.read? := by
  rw [next?_of_startsToken hflow hr hkey, closeBlocks_of_head (by simpa using hcolumns)]

/-- The end of the text ends all collections. -/
theorem Lexes.nil (hcolumns : ∀ c ∈ columns.head?, c ≤ column) :
    Lexes allowed columns column [] ((columns.map fun _ => Token.blockEnd) ++ [.streamEnd]) := by
  intro line toks
  have hall : columns.takeWhile (fun _ => true) = columns := List.takeWhile_eq_self_iff.2 (by simp)
  have hnext : Lexer.next? ⟨⟨[], ⟨line, column⟩⟩, allowed, none, [], columns, toks⟩ =
      some ⟨⟨[], ⟨line, column⟩⟩, allowed, none, [], [],
        (toks ++ columns.map fun _ => Token.blockEnd).push .streamEnd⟩ := by
    rw [Lexer.next?_eq_read? rfl (by simp [StartsToken]) rfl hcolumns]
    simp [Lexer.read?, Lexer.closeBlocks, Lexer.inFlow, Lexer.forgetKey?, Lexer.emit, hall]
  have hyields := Lexer.Yields.of_last hnext (by simp)
  simpa using hyields

/-! ## Marks -/

/-- The columns of the open collections once one stands at the column. -/
def opened (columns : List Nat) (column : Nat) : List Nat :=
  if columns.head? = some column then columns else column :: columns

/-- The token with which a collection begins at the column, if none stands there. -/
def opening (t : Token) (columns : List Nat) (column : Nat) : List Token :=
  if columns.head? = some column then [] else [t]

@[simp] theorem opened_self (columns : List Nat) (column : Nat) :
    opened (column :: columns) column = column :: columns := if_pos rfl

@[simp] theorem opening_self (t : Token) (columns : List Nat) (column : Nat) :
    opening t (column :: columns) column = [] := if_pos rfl

theorem exists_opened (columns : List Nat) (column : Nat) :
    ∃ outer, opened columns column = column :: outer := by
  unfold opened
  split
  · rename_i h
    obtain ⟨outer, rfl⟩ := List.head?_eq_some_iff.1 h
    exact ⟨outer, rfl⟩
  · exact ⟨columns, rfl⟩

theorem insertIdx_size (toks : Array Token) (t : Token) (more : List Token) :
    (toks ++ more).insertIdxIfInBounds toks.size t = toks ++ (t :: more) := by
  have hlist : (toks ++ more).toList = toks.toList ++ more := Array.toList_appendList
  have hle : toks.size ≤ (toks ++ more).size := by
    rw [← Array.length_toList, ← Array.length_toList, hlist, List.length_append]
    exact Nat.le_add_right ..
  have hinsert : ∀ before : List Token,
      (before ++ more).insertIdx before.length t = before ++ t :: more := by
    intro before
    induction before with
    | nil => rfl
    | cons a before ih => simp [ih]
  apply Array.ext'
  rw [Array.insertIdxIfInBounds, dif_pos hle, Array.toList_insertIdx, hlist,
    Array.toList_appendList, ← Array.length_toList, hinsert]

/-- A collection begins in front of the last tokens, unless one stands at the column. -/
theorem Lexer.openBlock_eq {toks : Array Token} (more : List Token) (t : Token)
    (hflow : l.outerStarts = []) (htoks : l.tokens = toks ++ more)
    (hcolumns : ∀ c ∈ l.columns.head?, c ≤ column) :
    l.openBlock t column toks.size =
      { l with columns := opened l.columns column
               tokens := toks ++ (opening t l.columns column ++ more) } := by
  have hflow' : l.inFlow = false := by rw [Lexer.inFlow, hflow]; rfl
  have hlt : column < l.margin ↔ l.columns.head? = some column := by
    unfold Lexer.margin
    cases hhead : l.columns.head? with
    | none => simp
    | some c =>
      have hc := hcolumns c hhead
      simp
      omega
  unfold openBlock opened opening
  simp only [hflow', Bool.false_or, decide_eq_true_eq, hlt]
  split
  · rw [List.nil_append, ← htoks]
  · rw [Lexer.insert, htoks, insertIdx_size]
    rfl

/-- **One step in block style**: the token, and those for which it shows that they stand before it,
come in front of the tokens of the rest. -/
theorem Lexes.of_read? {allowed' : Bool} {columns' : List Nat} {r' : Text} {before : List Token}
    {t : Token} (hr : StartsToken r) (ht : t ≠ .streamEnd)
    (hcolumns : ∀ c ∈ columns.head?, c ≤ column) (hlt : r'.length < r.length)
    (hread : ∀ line (toks : Array Token), ∃ q : Position,
      Lexer.read? ⟨⟨r, ⟨line, column⟩⟩, allowed, none, [], columns, toks⟩ =
        some ⟨⟨r', q⟩, allowed', none, [], columns', (toks ++ before).push t⟩ ∧
      Lexes allowed' columns' q.column r' ts) :
    Lexes allowed columns column r (before ++ t :: ts) := by
  intro line toks
  obtain ⟨⟨line', column'⟩, hread, h⟩ := hread line toks
  have hrest := h line' ((toks ++ before).push t)
  rw [Array.toList_push, Array.toList_appendList, List.append_assoc, List.append_assoc,
    List.singleton_append] at hrest
  refine .of_next? ((Lexer.next?_eq_read? rfl hr rfl hcolumns).trans hread) ?_ hlt hrest
  rw [Array.back?_push]
  simpa using ht

theorem startsToken_cons {c : Char} (h : isBreak c = false ∧ isBlank c = false ∧ c ≠ '#' ∧ c ≠ '\ufeff')
    (r : Text) : StartsToken (c :: r) := by
  intro d hd
  obtain rfl := Option.some.inj hd
  exact h

@[simp] theorem column_mk (r : Text) (line : Nat) : Cursor.column ⟨r, ⟨line, column⟩⟩ = column := rfl

theorem skip_one {c : Char} (hc : isBreak c = false) (line : Nat) :
    Cursor.skip ⟨c :: r, ⟨line, column⟩⟩ 1 = ⟨r, ⟨line, column + 1⟩⟩ := by
  have hafter := after_of_not_isBreak hc ⟨line, column⟩
  simp [Cursor.skip, Cursor.pass, hafter, Position.right]

theorem Lexer.openBlock_last (t : Token) (hflow : l.outerStarts = [])
    (hcolumns : ∀ c ∈ l.columns.head?, c ≤ column) :
    l.openBlock t column l.tokens.size =
      { l with columns := opened l.columns column
               tokens := l.tokens ++ opening t l.columns column } := by
  rw [openBlock_eq [] t hflow (by simp) hcolumns, List.append_nil]

theorem Lexer.readEntryMark?_eq {c : Char} {line : Nat} {toks : Array Token} (hc : isBreak c = false)
    (hcolumns : ∀ c ∈ columns.head?, c ≤ column) (t collection : Token) :
    readEntryMark? ⟨⟨c :: r, ⟨line, column⟩⟩, true, none, [], columns, toks⟩ t collection =
      some ⟨⟨r, ⟨line, column + 1⟩⟩, true, none, [], opened columns column,
        (toks ++ opening collection columns column).push t⟩ := by
  have hskip : Cursor.skip ⟨c :: r, ⟨line, column⟩⟩ 1 = ⟨r, ⟨line, column + 1⟩⟩ := skip_one hc line
  unfold readEntryMark?
  rw [if_neg (by simp), Lexer.openBlock_last collection rfl hcolumns]
  simp [forgetKey?, emitMark, emitTo, emit, hskip]

theorem Lexer.read?_dash (hrest : l.cursor.rest = '-' :: ' ' :: r) :
    l.read? = (l.readEntryMark? .entry .blockSequenceStart).map (·.allowKey true) := by
  have hdashes : startsWith ['-', '-', '-'] ('-' :: ' ' :: r) = false := rfl
  have hdots : startsWith ['.', '.', '.'] ('-' :: ' ' :: r) = false := rfl
  have hword : endsWord (' ' :: r) = true := rfl
  simp [read?, hrest, hdashes, hdots, hword]

/-- A dash opens a sequence, or it goes on with the one that stands at its column. -/
theorem Lexes.entry (hcolumns : ∀ c ∈ columns.head?, c ≤ column)
    (h : Lexes true (opened columns column) (column + 1) (' ' :: r) ts) :
    Lexes true columns column ('-' :: ' ' :: r)
      (opening .blockSequenceStart columns column ++ .entry :: ts) := by
  refine .of_read? (startsToken_cons (by decide) _) (by simp) hcolumns (by simp)
    fun line toks => ⟨⟨line, column + 1⟩, ?_, h⟩
  rw [Lexer.read?_dash rfl, Lexer.readEntryMark?_eq (by decide) hcolumns]
  rfl

theorem Lexer.read?_question (hrest : l.cursor.rest = '?' :: ' ' :: r) : l.read? =
    (l.readEntryMark? .key .blockMappingStart).map fun l => l.allowKey !l.inFlow := by
  have hdashes : startsWith ['-', '-', '-'] ('?' :: ' ' :: r) = false := rfl
  have hdots : startsWith ['.', '.', '.'] ('?' :: ' ' :: r) = false := rfl
  have hword : endsWord (' ' :: r) = true := rfl
  simp [read?, hrest, hdashes, hdots, hword]

/-- A question mark opens a mapping, or it goes on with the one that stands at its column. -/
theorem Lexes.question (hcolumns : ∀ c ∈ columns.head?, c ≤ column)
    (h : Lexes true (opened columns column) (column + 1) (' ' :: r) ts) :
    Lexes true columns column ('?' :: ' ' :: r)
      (opening .blockMappingStart columns column ++ .key :: ts) := by
  refine .of_read? (startsToken_cons (by decide) _) (by simp) hcolumns (by simp)
    fun line toks => ⟨⟨line, column + 1⟩, ?_, h⟩
  rw [Lexer.read?_question rfl, Lexer.readEntryMark?_eq (by decide) hcolumns]
  rfl

theorem Lexer.read?_colon (hr : endsWord r = true) (hrest : l.cursor.rest = ':' :: r) :
    l.read? = l.readColon? := by
  have hdashes : startsWith ['-', '-', '-'] (':' :: r) = false := rfl
  have hdots : startsWith ['.', '.', '.'] (':' :: r) = false := rfl
  simp [read?, hrest, hdashes, hdots, hr]

/-- A colon behind a key that a question mark has begun. -/
theorem Lexes.colon (h : Lexes true (column :: columns) (column + 1) (' ' :: r) ts) :
    Lexes true (column :: columns) column (':' :: ' ' :: r) (.value :: ts) := by
  have hcolumns : ∀ c ∈ (column :: columns).head?, c ≤ column := by simp
  have hread : ∀ line (toks : Array Token),
      Lexer.read? ⟨⟨':' :: ' ' :: r, ⟨line, column⟩⟩, true, none, [], column :: columns, toks⟩ =
        some ⟨⟨' ' :: r, ⟨line, column + 1⟩⟩, true, none, [], column :: columns,
          (toks ++ ([] : List Token)).push .value⟩ := by
    intro line toks
    have hskip : Cursor.skip ⟨':' :: ' ' :: r, ⟨line, column⟩⟩ 1 = ⟨' ' :: r, ⟨line, column + 1⟩⟩ :=
      skip_one (by decide) line
    rw [Lexer.read?_colon rfl rfl, Lexer.readColon?]
    simp only [Lexer.inFlow, List.isEmpty_nil, Bool.not_true, Bool.false_eq_true, if_false, if_true]
    rw [Lexer.openBlock_last _ rfl hcolumns]
    simp [Lexer.emitMark, Lexer.emitTo, Lexer.emit, Lexer.allowKey, hskip]
  exact .of_read? (startsToken_cons (by decide) _) (by simp) hcolumns (by simp)
    fun line toks => ⟨⟨line, column + 1⟩, hread line toks, h⟩

/-! ## Scalars -/

theorem startsToken_of_plainAllowed (h : plainAllowed t = true) (hne : t ≠ []) (r : Text) :
    StartsToken (t ++ r) := by
  have hprintable := printable_of_plainAllowed h
  have hunbroken := unbroken_of_plainAllowed h
  obtain ⟨c, t, rfl⟩ := List.exists_cons_of_ne_nil hne
  simp only [plainAllowed, startsSpecial, hasOuterSpace, Bool.and_eq_true, Bool.not_eq_true',
    Bool.or_eq_false_iff, List.head?_cons, Option.any_some, decide_eq_false_iff_not] at h
  obtain ⟨⟨⟨⟨-, ⟨hspace, -⟩, -⟩, -⟩, -, hindicator, -⟩, -⟩ := h
  have hc := hprintable c List.mem_cons_self
  refine startsToken_cons ⟨hunbroken c List.mem_cons_self, ?_, ?_, ?_⟩ (t ++ r)
  · rw [isBlank_of_printable hc]
    simpa using hspace
  · rintro rfl
    exact hindicator (by simp [startIndicators])
  · rintro rfl
    cases hc

/-- Where plain text may begin and no mark between documents stands, it is read. -/
theorem Lexer.read?_plain (hflow : l.outerStarts = [])
    (hmarker : atMarker l.cursor.position l.cursor.rest = false)
    (hstart : startsPlain false l.cursor.rest = true) : l.read? = l.readPlainScalar? := by
  have hflow' : l.inFlow = false := by rw [Lexer.inFlow, hflow]; rfl
  unfold Lexer.read?
  generalize l.cursor.rest = rest at hmarker hstart
  cases rest with
  | nil => cases hstart
  | cons c r =>
    have hmarks : ¬ (l.cursor.column = 0 ∧ startsWith "---" (c :: r) = true) ∧
        ¬ (l.cursor.column = 0 ∧ startsWith "..." (c :: r) = true) := by
      have hcolumn : l.cursor.column = l.cursor.position.column := rfl
      simp only [atMarker, startsMarker, Bool.and_eq_false_iff, beq_eq_false_iff_ne,
        Bool.or_eq_false_iff] at hmarker
      rw [hcolumn]
      rcases hmarker with hmarker | ⟨hdashes, hdots⟩
      · exact ⟨fun h => hmarker h.1, fun h => hmarker h.1⟩
      · exact ⟨fun h => Bool.false_ne_true (hdashes.symm.trans h.2),
          fun h => Bool.false_ne_true (hdots.symm.trans h.2)⟩
    have hother : c ∈ ['-', '?', ':'] ∧ endsWord r = false ∨ c ∉ indicators := by
      rw [startsPlain] at hstart
      split at hstart
      · rename_i hc
        exact .inl ⟨by simp [hc], by simpa using hstart⟩
      split at hstart
      · rename_i hc
        exact .inl ⟨by simp [hc], by simpa using hstart⟩
      · simp only [Bool.and_eq_true, decide_eq_true_eq] at hstart
        exact .inr hstart.2
    simp only [hflow', hstart, hmarks, if_false, if_true]
    rcases hother with ⟨hc, hword⟩ | hc
    · simp only [List.mem_cons, List.not_mem_nil, or_false] at hc
      rcases hc with rfl | rfl | rfl <;> simp [hword]
    · simp only [indicators, List.mem_cons, List.not_mem_nil, or_false, not_or] at hc
      simp [hc]

/-- The key that was remembered is forgotten on the next line. -/
theorem Lexes.yields_of_line {line : Nat} {toks : Array Token} {key : KeyStart}
    (hkey : key.required = false) (hline : key.position.line ≠ line) (hr : StartsToken r)
    (h : Lexes true columns column r ts) :
    Lexer.Yields ⟨⟨r, ⟨line, column⟩⟩, true, some key, [], columns, toks⟩ (toks.toList ++ ts) := by
  refine .of_next?_eq ?_ ?_ (h line toks)
  · have hopen : key.isOpenAt ⟨line, column⟩ = false := by simp [KeyStart.isOpenAt, hline]
    have hflow : ∀ key, Lexer.inFlow ⟨⟨r, ⟨line, column⟩⟩, true, key, [], columns, toks⟩ = false :=
      fun _ => rfl
    simp only [Lexer.next?, hflow, toNextToken_of_startsToken hr, Lexer.expireKey?,
      Lexer.forgetKey?, Option.all_some, Option.any_some, Option.all_none, hopen, hkey,
      Bool.false_eq_true, if_false, if_true]
  · exact Nat.le_refl _

/-- The place that is remembered where a token begins. -/
def Lexer.remembered (l : Lexer) : Option KeyStart :=
  if l.keyAllowed then
    some ⟨l.tokens.size, l.cursor.position, l.columns.head? == some l.cursor.column⟩
  else none

theorem Lexer.rememberKey?_eq (hflow : l.outerStarts = []) (hkey : l.keyStart = none) :
    l.rememberKey? = some { l with keyStart := l.remembered } := by
  have hflow' : l.inFlow = false := by rw [Lexer.inFlow, hflow]; rfl
  have hflow'' : Lexer.inFlow { l with keyStart := none } = false := hflow'
  unfold Lexer.rememberKey? Lexer.remembered
  split
  · simp [forgetKey?, hkey, hflow'']
  · rw [← hkey]

/-- Plain text that may be written so is read up to its end. -/
theorem Lexer.next?_plain {s : PlainScalar} (hflow : l.outerStarts = []) (hkey : l.keyStart = none)
    (ht : plainAllowed t = true) (hne : t ≠ []) (hrest : l.cursor.rest = t ++ r)
    (hmarker : atMarker l.cursor.position (t ++ r) = false)
    (hcolumns : ∀ c ∈ l.columns.head?, c ≤ l.cursor.column)
    (hread : readPlain? false l.margin .empty (l.cursor.position.right t.length) r = some s)
    (hs : s.text = []) :
    l.next? = some ⟨s.cursor, s.atNewLine, l.remembered, [], l.columns,
      l.tokens.push (.scalar .plain t)⟩ := by
  have hflow' : l.inFlow = false := by rw [Lexer.inFlow, hflow]; rfl
  have hexpire : l.expireKey? = some l := by rw [Lexer.expireKey?, hkey]; rfl
  have hstart := startsToken_of_plainAllowed ht hne r
  have hmargin : l.margin ≤ l.cursor.position.column + 1 := by
    unfold Lexer.margin
    cases hhead : l.columns.head? with
    | none => simp
    | some c => exact Nat.succ_le_succ (hcolumns c hhead)
  have htext : readPlain? false l.margin .empty l.cursor.position (t ++ r) =
      some ⟨t, s.cursor, s.atNewLine⟩ := by
    rw [Gap.empty, readPlain?_append [] (plainTail_of_allowed ht) rfl hmargin (by simp) r, hread]
    simp [hs]
  rw [Lexer.next?_eq_read? hflow (by rwa [hrest]) hexpire hcolumns,
    Lexer.read?_plain hflow (by rwa [hrest]) (by rw [hrest]; exact startsPlain_append ht hne r),
    Lexer.readPlainScalar?, Lexer.rememberKey?_eq hflow hkey]
  have hflow'' : Lexer.inFlow { l with keyStart := l.remembered } = false := hflow'
  have hmargin' : Lexer.margin { l with keyStart := l.remembered } = l.margin := rfl
  simp only [Option.bind_eq_bind, Option.bind_some, hflow'', hmargin', hrest, htext]
  rw [← hflow]
  rfl

/-- **Plain text that ends its line**: the next line begins further to the left. -/
theorem Lexes.plain {c k : Nat} (ht : plainAllowed t = true) (hne : t ≠ []) (hc : c < column)
    (hr : StartsToken r) (hk : k ≤ c) (h : Lexes true (c :: columns) k r ts) :
    Lexes allowed (c :: columns) column (t ++ '\n' :: (Yaml.spaces k ++ r))
      (.scalar .plain t :: ts) := by
  intro line toks
  have hmarker : atMarker ⟨line, column⟩ (t ++ '\n' :: (Yaml.spaces k ++ r)) = false := by
    simp [atMarker, Nat.ne_of_gt (Nat.zero_lt_of_lt hc)]
  have hnext := Lexer.next?_plain
    (l := ⟨⟨t ++ '\n' :: (Yaml.spaces k ++ r), ⟨line, column⟩⟩, allowed, none, [], c :: columns, toks⟩)
    rfl rfl ht hne rfl hmarker (by simpa using Nat.le_of_lt hc)
    (readPlain?_newline hr (Nat.lt_succ_of_le hk)) rfl
  have hrest : toks.toList ++ .scalar .plain t :: ts = (toks.push (.scalar .plain t)).toList ++ ts := by
    simp
  rw [hrest]
  refine .of_next? hnext (by simp) (by simp only [List.length_cons, List.length_append]; omega) ?_
  cases allowed with
  | false => exact h _ _
  | true =>
    have hcolumn : some c ≠ some column := by simpa using Nat.ne_of_lt hc
    exact h.yields_of_line (beq_eq_false_iff_ne.2 hcolumn) (Nat.ne_of_lt (Nat.lt_succ_self line)) hr

/-- A colon behind a text that may be a key makes it one. -/
theorem Lexer.readColon?_key {toks : Array Token} {key : KeyStart} {line : Nat} {t : Token}
    (hplace : key.place = toks.size) (hcolumns : ∀ c ∈ columns.head?, c ≤ key.position.column) :
    readColon? ⟨⟨':' :: r, ⟨line, column⟩⟩, allowed, some key, [], columns, toks.push t⟩ =
      some ⟨⟨r, ⟨line, column + 1⟩⟩, false, none, [], opened columns key.position.column,
        (toks ++ (opening .blockMappingStart columns key.position.column ++ [.key, t])).push .value⟩ := by
  have hskip : Cursor.skip ⟨':' :: r, ⟨line, column⟩⟩ 1 = ⟨r, ⟨line, column + 1⟩⟩ :=
    skip_one (by decide) line
  have hinsert : (toks.push t).insertIdxIfInBounds toks.size .key = toks ++ [.key, t] := by
    have hpush : toks.push t = toks ++ [t] := by simp
    rw [hpush, insertIdx_size]
  unfold readColon?
  simp only [Lexer.insert, hplace, hinsert]
  rw [Lexer.openBlock_eq [.key, t] _ rfl rfl hcolumns]
  simp only [Lexer.emitMark, Lexer.emitTo, Lexer.emit, Lexer.allowKey, hskip]

/-- **Plain text before a colon is a key.** -/
theorem Lexes.key (ht : plainAllowed t = true) (hne : t ≠ []) (hlength : t.length ≤ keyLimit)
    (hmarker : column = 0 → startsMarker (t ++ ':' :: r) = false) (hr : endsWord r = true)
    (hcolumns : ∀ c ∈ columns.head?, c ≤ column)
    (h : Lexes false (opened columns column) (column + t.length + 1) r ts) :
    Lexes true columns column (t ++ ':' :: r)
      (opening .blockMappingStart columns column ++ .key :: .scalar .plain t :: .value :: ts) := by
  intro line toks
  have hmarker' : atMarker ⟨line, column⟩ (t ++ ':' :: r) = false := by
    by_cases hcolumn : column = 0
    · rw [atMarker, hmarker hcolumn, Bool.and_false]
    · simp [atMarker, hcolumn]
  have hnext := Lexer.next?_plain
    (l := ⟨⟨t ++ ':' :: r, ⟨line, column⟩⟩, true, none, [], columns, toks⟩)
    rfl rfl ht hne rfl hmarker' hcolumns (readPlain?_colon hr) rfl
  let key : KeyStart := ⟨toks.size, ⟨line, column⟩, columns.head? == some column⟩
  let found := toks ++ (opening .blockMappingStart columns column ++ [.key, .scalar .plain t])
  have hcolon : Lexer.next? ⟨⟨':' :: r, ⟨line, column + t.length⟩⟩, false, some key, [], columns,
      toks.push (.scalar .plain t)⟩ = some ⟨⟨r, ⟨line, column + t.length + 1⟩⟩, false, none, [],
        opened columns column, found.push .value⟩ := by
    have hopen : key.isOpenAt ⟨line, column + t.length⟩ = true := by
      simpa [KeyStart.isOpenAt, key] using hlength
    rw [Lexer.next?_eq_read? rfl (startsToken_cons (by decide) r), Lexer.read?_colon hr rfl,
      Lexer.readColon?_key rfl hcolumns]
    · simp [Lexer.expireKey?, hopen]
    · exact fun c hc => Nat.le_add_right_of_le (hcolumns c hc)
  have hrest := h line (found.push .value)
  rw [Array.toList_push, Array.toList_appendList, List.append_assoc, List.append_assoc,
    List.append_assoc] at hrest
  exact .of_next? hnext (by simp) (by simp; exact List.length_pos_iff.2 hne)
    (.of_next? hcolon (by simp) (Nat.lt_succ_self _) hrest)

/-! ## The empty mapping -/

/-- A pair of braces that is the whole text. -/
theorem Lexes.braces : Lexes true [] 0 ['\x7b', '\x7d', '\n']
    [.flowMappingStart, .flowMappingEnd, .streamEnd] := by
  intro line toks
  let key : KeyStart := ⟨toks.size, ⟨line, 0⟩, false⟩
  have hopen : Lexer.next? ⟨⟨['\x7b', '\x7d', '\n'], ⟨line, 0⟩⟩, true, none, [], [], toks⟩ =
      some ⟨⟨['\x7d', '\n'], ⟨line, 1⟩⟩, true, none, [some key], [],
        toks.push .flowMappingStart⟩ := rfl
  have hclose : Lexer.next? ⟨⟨['\x7d', '\n'], ⟨line, 1⟩⟩, true, none, [some key], [],
        toks.push .flowMappingStart⟩ =
      some ⟨⟨['\n'], ⟨line, 2⟩⟩, false, some key, [], [],
        (toks.push .flowMappingStart).push .flowMappingEnd⟩ := rfl
  have hend : Lexer.next? ⟨⟨['\n'], ⟨line, 2⟩⟩, false, some key, [], [],
        (toks.push .flowMappingStart).push .flowMappingEnd⟩ =
      some ⟨⟨[], ⟨line + 1, 0⟩⟩, true, none, [], [],
        ((toks.push .flowMappingStart).push .flowMappingEnd).push .streamEnd⟩ := by
    have hexpired : key.isOpenAt ⟨line + 1, 0⟩ = false := by simp [KeyStart.isOpenAt, key]
    have htoken : toNextToken false false false ⟨line, 2⟩ ['\n'] = (true, ⟨[], ⟨line + 1, 0⟩⟩) := rfl
    simp [Lexer.next?, Lexer.inFlow, htoken, Lexer.expireKey?, hexpired, Lexer.forgetKey?,
      Lexer.closeBlocks, Lexer.read?, Lexer.emit, key]
  have hlast := Lexer.Yields.of_last hend (by simp)
  refine .of_next? hopen (by simp) (by simp) (.of_next? hclose (by simp) (by simp) ?_)
  simpa using hlast

end TexSymbols.Yaml
