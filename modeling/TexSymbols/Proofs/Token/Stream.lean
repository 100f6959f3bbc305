import TexSymbols.Proofs.Tex.Definition
import TexSymbols.Proofs.Text.Split
import TexSymbols.Token.Stream

/-!
# Lines and the items they become

* `Definition.read_of_tagged` — a tagged comment line is no definition.
* `Token.exists_error_streamFrom_iff` — a stream holds an error exactly if the text has a tagged
  comment line without a second colon.
* `PlainLines` — lines without tagged comments; `PlainLines.streamFrom` — they become definitions
  and ordinary lines.
-/

namespace TexSymbols

variable {line rest : Text}

theorem taggedRest?_eq_some_iff :
    taggedRest? line = some rest ↔ Text.trimStart line = '%' :: ':' :: rest :=
  Text.removePrefix?_eq_some

theorem isPlainComment_of_tagged (h : taggedRest? line = some rest) :
    isPlainComment line = false := by
  simp [isPlainComment, h]

namespace Definition

/-- A tagged comment line is no definition. -/
theorem read_of_tagged (h : taggedRest? line = some rest) : read line = .other := by
  refine read_eq_other fun r hr => ?_
  rw [taggedRest?_eq_some_iff.1 h] at hr
  cases hr

end Definition

/-! ## Errors -/

/-- The line is a tagged comment without a second colon. -/
def Unterminated (line : Text) : Prop := ∃ rest, taggedRest? line = some rest ∧ ':' ∉ rest

theorem unterminated_iff :
    Unterminated line ↔ (taggedRest? line).map (Text.splitOnce ':') = some none := by
  simp [Unterminated, Text.splitOnce_eq_none_iff]

theorem not_unterminated_of_definition {d : Definition} (h : Definition.read line = .definition d) :
    ¬ Unterminated line := by
  rintro ⟨rest, hrest, -⟩
  rw [Definition.read_of_tagged hrest] at h
  cases h

/-- A line that does not go on with a block can be left out when errors are looked for, if it has
none. -/
theorem exists_mem_dropWhile_iff (lines : List Text) :
    (∃ line ∈ lines.dropWhile isPlainComment, Unterminated line) ↔
      ∃ line ∈ lines, Unterminated line := by
  induction lines with
  | nil => simp
  | cons line lines ih =>
    cases h : isPlainComment line with
    | false => rw [List.dropWhile_cons_of_neg (by simp [h])]
    | true =>
      have hline : ¬ Unterminated line := by
        rintro ⟨rest, hrest, -⟩
        rw [isPlainComment_of_tagged hrest] at h
        cases h
      rw [List.dropWhile_cons_of_pos h, ih]
      simp [hline]

namespace Token

/-- **A stream holds an error exactly if a tagged comment line lacks its second colon.** -/
theorem exists_error_streamFrom_iff (file : Text) (n : Nat) (lines : List Text) :
    (∃ e, .error e ∈ streamFrom file n lines) ↔ ∃ line ∈ lines, Unterminated line := by
  fun_induction streamFrom file n lines with
  | case1 => simp
  | case2 n line rest loc d hd ih => simpa [not_unterminated_of_definition hd] using ih
  | case3 n line rest loc tag first htag more _ ih =>
    have hline : ¬ Unterminated line := by simp [unterminated_iff, htag]
    rw [exists_mem_dropWhile_iff] at ih
    simpa [hline] using ih
  | case4 n line rest loc htag _ _ =>
    have hline : Unterminated line := unterminated_iff.2 htag
    exact ⟨fun _ => ⟨line, List.mem_cons_self, hline⟩, fun _ => ⟨_, List.mem_cons_self⟩⟩
  | case5 n line rest loc htag _ ih =>
    have hline : ¬ Unterminated line := by simp [unterminated_iff, htag]
    simpa [hline] using ih

/-- Such a line is the only reason for an error in a stream. -/
theorem eq_unterminatedTag_of_mem {file : Text} {n : Nat} {lines : List Text} {e : ReadError}
    (h : .error e ∈ streamFrom file n lines) : ∃ loc, e = .unterminatedTag loc := by
  fun_induction streamFrom file n lines with
  | case1 => simp at h
  | case2 n line rest loc d _ ih => exact ih (by simpa using h)
  | case3 n line rest loc tag first _ _ _ ih => exact ih (by simpa using h)
  | case4 n line rest loc _ _ ih =>
    rcases List.mem_cons.1 h with heq | h
    · cases heq
      exact ⟨loc, rfl⟩
    · exact ih h
  | case5 n line rest loc _ _ ih => exact ih (by simpa using h)

end Token

/-! ## Lines without tags -/

def Item.definition? : Item → Option Definition
  | .ok (.definition d _) => some d
  | _ => none

/-- What a line defines, if it is a definition. -/
def definitionOf? (line : Text) : Option Definition :=
  match Definition.read line with
  | .definition d => some d
  | _ => none

/-- No line is a tagged comment, and `ds` are the definitions among the lines. -/
structure PlainLines (lines : List Text) (ds : List Definition) : Prop where
  untagged : ∀ line ∈ lines, taggedRest? line = none
  definitions_eq : lines.filterMap definitionOf? = ds

namespace PlainLines

variable {lines lines' : List Text} {ds ds' : List Definition}

theorem nil : PlainLines [] [] := ⟨by simp, rfl⟩

theorem append (h : PlainLines lines ds) (h' : PlainLines lines' ds') :
    PlainLines (lines ++ lines') (ds ++ ds') where
  untagged line hline := (List.mem_append.1 hline).elim (h.untagged line) (h'.untagged line)
  definitions_eq := by rw [List.filterMap_append, h.definitions_eq, h'.definitions_eq]

theorem definition {d : Definition} (h : Definition.read line = .definition d) :
    PlainLines [line] [d] where
  untagged line' hline := by
    obtain rfl := List.mem_singleton.1 hline
    cases htag : taggedRest? line' with
    | none => rfl
    | some rest =>
      rw [Definition.read_of_tagged htag] at h
      cases h
  definitions_eq := by simp [definitionOf?, h]

theorem ordinary (htag : taggedRest? line = none) (h : Definition.read line = .other) :
    PlainLines [line] [] where
  untagged line' hline := by rw [List.mem_singleton.1 hline, htag]
  definitions_eq := by simp [definitionOf?, h]

/-- **Lines without tags become definitions and ordinary lines**, and the definitions are those of
the lines. -/
theorem streamFrom (h : PlainLines lines ds) (file : Text) (n : Nat) :
    (Token.streamFrom file n lines).filterMap Item.definition? = ds ∧
      ∀ item ∈ Token.streamFrom file n lines, (∃ d loc, item = .ok (.definition d loc)) ∨
        ∃ line loc, item = .ok (.passthrough line loc) := by
  obtain ⟨huntagged, rfl⟩ := h
  fun_induction Token.streamFrom file n lines with
  | case1 => simp
  | case2 n line rest loc d hd ih =>
    obtain ⟨hdefinitions, hitems⟩ := ih fun l hl => huntagged l (List.mem_cons_of_mem _ hl)
    have hline : definitionOf? line = some d := by simp [definitionOf?, hd]
    refine ⟨?_, List.forall_mem_cons.2 ⟨.inl ⟨d, loc, rfl⟩, hitems⟩⟩
    rw [List.filterMap_cons_some hline, ← hdefinitions]
    rfl
  | case3 n line rest loc tag first htag more _ ih =>
    rw [huntagged line List.mem_cons_self] at htag
    cases htag
  | case4 n line rest loc htag _ _ =>
    rw [huntagged line List.mem_cons_self] at htag
    cases htag
  | case5 n line rest loc htag hd ih =>
    obtain ⟨hdefinitions, hitems⟩ := ih fun l hl => huntagged l (List.mem_cons_of_mem _ hl)
    have hline : definitionOf? line = none := by
      unfold definitionOf?
      split
      · rename_i d hd'
        exact absurd hd' (hd d)
      · rfl
    refine ⟨?_, List.forall_mem_cons.2 ⟨.inr ⟨line, loc, rfl⟩, hitems⟩⟩
    rw [List.filterMap_cons_none hline, ← hdefinitions]
    rfl

end PlainLines

end TexSymbols
