import TexSymbols.Proofs.Yaml.Block
import TexSymbols.Proofs.Yaml.Lexer
import TexSymbols.Proofs.Yaml.Quoted

/-!
# Strings that were written as values

* `styled_styleOf` — what is known of a text by its style.
* `formOf` — the form of the scalar that a written string becomes.
* `Lexes.plainLine`, `Lexes.single`, `Lexes.double`, `Lexes.literal` — the four styles.
* `Lexes.scalar` — a string that was written as the value of a field is lexed as one scalar with
  the text of the string.
-/

namespace TexSymbols.Yaml

variable {l : Lexer} {ts : List Token} {allowed : Bool} {columns : List Nat} {column k : Nat}
  {r t : Text}

/-- What is known of a text by the style in which it is written. -/
inductive Styled (t : Text) : Style → Prop
  | plain (hbreak : '\n' ∉ t) (hplain : plainAllowed t = true) (himplicit : isImplicit t = false) :
    Styled t .plain
  | single (hbreak : '\n' ∉ t) (hsingle : singleAllowed t = true) : Styled t .single
  | double : Styled t .double
  | literal (hbreak : '\n' ∈ t) (hliteral : literalAllowed t = true) : Styled t .literal

theorem styled_styleOf (t : Text) : Styled t (styleOf t) := by
  unfold styleOf
  split
  · rename_i hbreak
    split
    · exact .literal hbreak ‹_›
    · exact .double
  · rename_i hbreak
    split
    · rename_i hplain
      rw [Bool.and_eq_true, Bool.not_eq_true'] at hplain
      exact .plain hbreak hplain.1 hplain.2
    split
    · exact .single hbreak ‹_›
    · exact .double

/-- The form in which a string is written. -/
def formOf (t : Text) : Form :=
  match styleOf t with
  | .plain => .plain
  | .single => .other
  | .double => .other
  | .literal => .literal

theorem Lexer.read?_quoted {c : Char} (hc : c = '\'' ∨ c = '"') (hrest : l.cursor.rest = c :: r) :
    l.read? = l.readQuotedScalar? (if c = '\'' then readSingle? else readDouble?) := by
  have hdashes : startsWith ['-', '-', '-'] (c :: r) = false := by
    rcases hc with rfl | rfl <;> rfl
  have hdots : startsWith ['.', '.', '.'] (c :: r) = false := by
    rcases hc with rfl | rfl <;> rfl
  rcases hc with rfl | rfl <;> simp [read?, hrest, hdashes, hdots]

/-- A quoted text that ends its line, as a value. -/
theorem Lexes.quoted {c : Char} {body : Text} (hc : c = '\'' ∨ c = '"')
    (hcolumns : ∀ c ∈ columns.head?, c ≤ column)
    (hread : ∀ p : Position, p.column ≠ 0 → ∃ q,
      (if c = '\'' then readSingle? else readDouble?) .empty p (body ++ c :: '\n' :: r) =
        some (t, ⟨'\n' :: r, q⟩))
    (h : Lexes true columns 0 r ts) :
    Lexes false columns column (c :: (body ++ c :: '\n' :: r)) (.scalar .other t :: ts) := by
  have hstart : StartsToken (c :: (body ++ c :: '\n' :: r)) := by
    refine startsToken_cons ?_ _
    rcases hc with rfl | rfl <;> decide
  have hstep : ∀ line (toks : Array Token), ∃ q : Position,
      Lexer.read? ⟨⟨c :: (body ++ c :: '\n' :: r), ⟨line, column⟩⟩, false, none, [], columns, toks⟩ =
        some ⟨⟨'\n' :: r, q⟩, false, none, [], columns,
          (toks ++ ([] : List Token)).push (.scalar .other t)⟩ ∧
      Lexes false columns q.column ('\n' :: r) ts := by
    intro line toks
    obtain ⟨q, hq⟩ := hread (Position.right ⟨line, column⟩ 1) (Nat.succ_ne_zero _)
    refine ⟨q, ?_, h.newline⟩
    rw [Lexer.read?_quoted hc rfl, Lexer.readQuotedScalar?, Lexer.readContent?,
      Lexer.rememberKey?_eq rfl rfl]
    simp [hq, Lexer.remembered, Lexer.emitTo, Lexer.emit, Lexer.allowKey]
  exact .of_read? hstart (by simp) hcolumns
    (by simp only [List.length_cons, List.length_append]; omega) hstep

theorem Lexer.read?_block (hflow : l.outerStarts = []) (hrest : l.cursor.rest = '|' :: r) :
    l.read? = l.readBlockScalar? := by
  have hdashes : startsWith ['-', '-', '-'] ('|' :: r) = false := rfl
  have hdots : startsWith ['.', '.', '.'] ('|' :: r) = false := rfl
  simp [read?, hrest, hdashes, hdots, inFlow, hflow]

/-- A literal block as a value. -/
theorem Lexes.literal {c : Nat} (hbreak : '\n' ∈ t) (ht : literalAllowed t = true)
    (hc : c < column) (hr : BeginsLine k r) (hk : k ≤ c) (h : Lexes true (c :: columns) k r ts) :
    Lexes false (c :: columns) column
      (endLine (literalHeader t ++ literalBody (c + 2) true t) ++ (Yaml.spaces k ++ r))
      (.scalar .literal t :: ts) := by
  obtain ⟨written, hwritten⟩ :
      ∃ w, endLine (literalHeader t ++ literalBody (c + 2) true t) = '|' :: w := by
    rw [literalHeader_eq]
    exact endLine_cons _ _
  have hread := readBlock?_literal (Nat.succ_ne_zero c) hbreak ht hr (Nat.le_succ_of_le hk)
  rw [hwritten] at hread ⊢
  have hstep : ∀ line (toks : Array Token), ∃ q : Position,
      Lexer.read? ⟨⟨'|' :: (written ++ (Yaml.spaces k ++ r)), ⟨line, column⟩⟩, false, none, [],
        c :: columns, toks⟩ = some ⟨⟨Yaml.spaces k ++ r, q⟩, true, none, [], c :: columns,
          (toks ++ ([] : List Token)).push (.scalar .literal t)⟩ ∧
      Lexes true (c :: columns) q.column (Yaml.spaces k ++ r) ts := by
    intro line toks
    obtain ⟨line', hblock⟩ := hread ⟨line, column⟩
    refine ⟨⟨line', 0⟩, ?_, .spaces (by rwa [Nat.zero_add])⟩
    rw [Lexer.read?_block rfl rfl, Lexer.readBlockScalar?]
    have hmargin : Lexer.margin ⟨⟨'|' :: (written ++ (Yaml.spaces k ++ r)), ⟨line, column⟩⟩, false,
      none, [], c :: columns, toks⟩ = c + 1 := rfl
    rw [List.cons_append] at hblock
    simp [Lexer.forgetKey?, Lexer.margin, hblock, Lexer.emitTo, Lexer.emit, Lexer.allowKey]
  exact .of_read? (startsToken_cons (by decide) _) (by simp) (by simpa using Nat.le_of_lt hc)
    (by simp only [List.length_cons, List.length_append]; omega) hstep

theorem endLine_append {s : Text} (hs : s.getLast?.any isBreak = false) (t : Text) :
    endLine (s ++ t) = s ++ endLine t := by
  unfold endLine
  rw [List.getLast?_append]
  cases hlast : t.getLast? with
  | none =>
    rw [List.getLast?_eq_none_iff.1 hlast]
    simp [hs]
  | some c => by_cases hc : isBreak c = true <;> simp [hc]

theorem endLine_of_not_break {t : Text} (h : ∀ c ∈ t.getLast?, isBreak c = false) :
    endLine t = t ++ ['\n'] := by
  have hlast : t.getLast?.any isBreak = false := by
    cases hlast : t.getLast? with
    | none => rfl
    | some c => exact h c hlast
  rw [endLine, if_neg (by simp [hlast])]
  rfl

theorem endLine_quoted {c : Char} (hc : isBreak c = false) (body : Text) :
    endLine ([c] ++ body ++ [c]) ++ r = c :: (body ++ c :: '\n' :: r) := by
  have hlast : ∀ d ∈ ([c] ++ body ++ [c]).getLast?, isBreak d = false := by
    rw [List.getLast?_concat]
    intro d hd
    obtain rfl := Option.some.inj hd
    exact hc
  rw [endLine_of_not_break hlast]
  simp

theorem Lexes.double (hcolumns : ∀ c ∈ columns.head?, c ≤ column) (h : Lexes true columns 0 r ts) :
    Lexes false columns column (endLine ("\"" ++ t.flatMap doubleChar ++ "\"") ++ r)
      (.scalar .other t :: ts) := by
  have hend : endLine ("\"" ++ t.flatMap doubleChar ++ "\"") ++ r =
      '"' :: (t.flatMap doubleChar ++ '"' :: '\n' :: r) := endLine_quoted (by decide) _
  rw [hend]
  exact .quoted (.inr rfl) hcolumns (fun p hp => readDouble?_flatMap [] hp t _) h

theorem Lexes.single {indent : Nat} (hindent : indent ≠ 0) (hbreak : '\n' ∉ t)
    (ht : singleAllowed t = true) (hcolumns : ∀ c ∈ columns.head?, c ≤ column)
    (h : Lexes true columns 0 r ts) :
    Lexes false columns column (endLine ("'" ++ singleBody indent false t ++ "'") ++ r)
      (.scalar .other t :: ts) := by
  have hend : endLine ("'" ++ singleBody indent false t ++ "'") ++ r =
      '\'' :: (singleBody indent false t ++ '\'' :: '\n' :: r) := endLine_quoted (by decide) _
  have hprintable := printable_of_singleAllowed ht
  simp only [singleAllowed, Bool.and_eq_true, Bool.not_eq_true'] at ht
  rw [hend]
  exact .quoted (.inl rfl) hcolumns
    (fun p hp => readSingle?_singleBody hindent hprintable hbreak ht.1.1 ht.1.2 (.empty hp) (by simp)) h

/-- Plain text as a value, which ends its line. -/
theorem Lexes.plainLine {c : Nat} (ht : plainAllowed t = true) (hne : t ≠ []) (hc : c < column)
    (hr : StartsToken r) (hk : k ≤ c) (h : Lexes true (c :: columns) k r ts) :
    Lexes allowed (c :: columns) column (endLine t ++ (Yaml.spaces k ++ r))
      (.scalar .plain t :: ts) := by
  have hlast : ∀ d ∈ t.getLast?, isBreak d = false :=
    fun d hd => unbroken_of_plainAllowed ht d (List.mem_of_getLast? hd)
  rw [endLine_of_not_break hlast, List.append_assoc]
  exact .plain ht hne hc hr hk h

/-- **A string as a value is read as it was written**, in any of the styles. -/
theorem Lexes.scalar {c : Nat} (t : Text) (hc : c < column) (hr : BeginsLine k r) (hk : k ≤ c)
    (h : Lexes true (c :: columns) k r ts) :
    Lexes false (c :: columns) column (endLine (writeScalar (c + 2) t) ++ (Yaml.spaces k ++ r))
      (.scalar (formOf t) t :: ts) := by
  have hcolumns : ∀ d ∈ (c :: columns).head?, d ≤ column := by simpa using Nat.le_of_lt hc
  have hrest : Lexes true (c :: columns) 0 (Yaml.spaces k ++ r) ts := .spaces (by rwa [Nat.zero_add])
  have hstyled := styled_styleOf t
  unfold formOf writeScalar
  generalize styleOf t = style at hstyled
  cases hstyled with
  | plain _ hplain himplicit =>
    have hne : t ≠ [] := by
      rintro rfl
      cases himplicit
    exact .plainLine hplain hne hc hr.starts hk h
  | single hbreak hsingle => exact .single (Nat.succ_ne_zero _) hbreak hsingle hcolumns hrest
  | double => exact .double hcolumns hrest
  | literal hbreak hliteral => exact .literal hbreak hliteral hc hr hk h

end TexSymbols.Yaml
