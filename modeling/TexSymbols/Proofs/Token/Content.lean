import TexSymbols.Proofs.Token.Partition

/-!
# Lines that are written and read back

* `Content` — what an item says, apart from where it stands; `Item.content?`, `Content.ofLine`.
* `mem_stream_passthrough`, `mem_stream_definition` — where the items of a stream come from.
* `ReadsAs` — a line that is read the same way whatever stands around it.
* `unlines`, `Writes` — a text of such lines; `Writes.stream` — its items are what was written.
-/

namespace TexSymbols

/-- What an item says that is no error and no tagged block. -/
inductive Content
  | definition (d : Definition)
  | passthrough (line : Text)
deriving DecidableEq

/-- What the item says; errors and tagged blocks have none. -/
def Item.content? : Item → Option Content
  | .ok (.definition d _) => some (.definition d)
  | .ok (.passthrough line _) => some (.passthrough line)
  | .ok (.block _) => none
  | .error _ => none

/-- What a line says that is no tagged comment. -/
def Content.ofLine (line : Text) : Content :=
  match Definition.read line with
  | .definition d => .definition d
  | _ => .passthrough line

theorem Content.ofLine_of_definition {line : Text} {d : Definition}
    (h : Definition.read line = .definition d) : ofLine line = .definition d := by
  rw [ofLine, h]

theorem Content.ofLine_of_ordinary {line : Text} (h : ∀ d, Definition.read line ≠ .definition d) :
    ofLine line = .passthrough line := by
  unfold ofLine
  split
  · rename_i d hd
    exact absurd hd (h d)
  · rfl

theorem Content.ofLine_of_other {line : Text} (h : Definition.read line = .other) :
    ofLine line = .passthrough line :=
  ofLine_of_ordinary fun d hd => by rw [h] at hd; cases hd

/-! ## Where items come from -/

section Origin

variable {file text line : Text} {loc : Location} {d : Definition}

theorem exists_stretch_of_mem_stream {item : Item} (h : item ∈ Token.stream file text) :
    ∃ s : Stretch, s.item = item ∧ s.first ∈ Text.lines text ∧ s.Sound file := by
  obtain ⟨stretches, hstretches⟩ :=
    exists_partition file 0 (Text.lines text) fun _ hline => Text.notMem_of_mem_lines hline
  have hmem : item ∈ stretches.map Stretch.item := by rwa [hstretches.items_eq]
  obtain ⟨s, hs, rfl⟩ := List.mem_map.1 hmem
  refine ⟨s, rfl, ?_, hstretches.sound s hs⟩
  rw [← hstretches.lines_eq]
  exact List.mem_flatMap.2 ⟨s, hs, List.mem_cons_self⟩

/-- A line that was passed through is one of the text, and it is read as itself. -/
theorem mem_stream_passthrough (h : .ok (.passthrough line loc) ∈ Token.stream file text) :
    line ∈ Text.lines text ∧ taggedRest? line = none ∧
      ∀ d, Definition.read line ≠ .definition d := by
  obtain ⟨s, hitem, hfirst, hsound⟩ := exists_stretch_of_mem_stream h
  have hkind := hsound.kind_eq
  have hline := hsound.fromLine
  rw [hitem] at hkind hline
  obtain rfl : line = s.first := hline
  have hdefinition : ∀ d, Definition.read s.first ≠ .definition d := by
    intro d hd
    rw [LineKind.ofLine_of_definition hd] at hkind
    cases hkind
  refine ⟨hfirst, ?_, hdefinition⟩
  cases htag : taggedRest? s.first with
  | none => rfl
  | some rest =>
    rw [LineKind.ofLine_of_tagged htag] at hkind
    split at hkind <;> cases hkind

/-- A definition was read from a line of the text. -/
theorem mem_stream_definition (h : .ok (.definition d loc) ∈ Token.stream file text) :
    ∃ line ∈ Text.lines text, Definition.read line = .definition d := by
  obtain ⟨s, hitem, hfirst, hsound⟩ := exists_stretch_of_mem_stream h
  have hline := hsound.fromLine
  rw [hitem] at hline
  exact ⟨s.first, hfirst, hline⟩

end Origin

/-! ## Writing lines -/

/-- A line that stays one line if a line feed is put behind it, and is no tagged comment. -/
structure Rereadable (line : Text) : Prop where
  newline_notMem : '\n' ∉ line
  return_notLast : line.getLast? ≠ some '\r'
  untagged : taggedRest? line = none

/-- A line that says `content` wherever it is written. -/
structure ReadsAs (line : Text) (content : Content) : Prop extends Rereadable line where
  content_eq : Content.ofLine line = content

namespace ReadsAs

variable {line rest : Text}

/-- A line that begins neither like a definition nor like a tagged comment. -/
theorem ordinary (hnewline : '\n' ∉ line) (hreturn : line.getLast? ≠ some '\r')
    (htag : taggedRest? line = none) (h : Definition.read line = .other) :
    ReadsAs line (.passthrough line) where
  newline_notMem := hnewline
  return_notLast := hreturn
  untagged := htag
  content_eq := Content.ofLine_of_other h

/-- A comment line without a tag. -/
theorem comment (hnewline : '\n' ∉ line) (hreturn : line.getLast? ≠ some '\r')
    (h : Text.trimStart line = '%' :: rest) (hrest : rest.head? ≠ some ':') :
    ReadsAs line (.passthrough line) := by
  refine .ordinary hnewline hreturn ?_ (Definition.read_eq_other fun r hr => ?_)
  · cases htag : taggedRest? line with
    | none => rfl
    | some r =>
      rw [taggedRest?_eq_some_iff, h] at htag
      obtain ⟨-, rfl⟩ := List.cons.inj htag
      exact absurd rfl hrest
  · rw [h] at hr
    cases hr

end ReadsAs

/-- The lines, each with a line feed behind it. -/
def unlines (lines : List Text) : Text := lines.foldr (fun line t => line ++ '\n' :: t) []

theorem unlines_append (lines lines' : List Text) :
    unlines (lines ++ lines') = unlines lines ++ unlines lines' := by
  induction lines with
  | nil => rfl
  | cons line lines ih =>
    have hcons : ∀ rest, unlines (line :: rest) = line ++ '\n' :: unlines rest := fun _ => rfl
    rw [List.cons_append, hcons, hcons, ih, List.append_assoc, List.cons_append]

/-- Lines that hold no line feed and do not end in a carriage return are read back. -/
theorem lines_unlines {lines : List Text}
    (h : ∀ line ∈ lines, '\n' ∉ line ∧ line.getLast? ≠ some '\r') :
    Text.lines (unlines lines) = lines := by
  rw [unlines, Text.lines_foldr h, Text.lines, List.append_nil]

/-- The text consists of lines that say the contents, each with a line feed behind it. -/
def Writes (text : Text) (contents : List Content) : Prop :=
  ∃ lines, text = unlines lines ∧ (∀ line ∈ lines, Rereadable line) ∧
    lines.map Content.ofLine = contents

namespace Writes

variable {text text' : Text} {contents contents' : List Content}

theorem nil : Writes [] [] := ⟨[], rfl, by simp, rfl⟩

theorem append (h : Writes text contents) (h' : Writes text' contents') :
    Writes (text ++ text') (contents ++ contents') := by
  obtain ⟨lines, rfl, hlines, rfl⟩ := h
  obtain ⟨lines', rfl, hlines', rfl⟩ := h'
  exact ⟨lines ++ lines', (unlines_append ..).symm,
    List.forall_mem_append.2 ⟨hlines, hlines'⟩, List.map_append⟩

theorem line {line : Text} {content : Content} (h : ReadsAs line content) :
    Writes (line ++ ['\n']) [content] :=
  ⟨[line], rfl, by simpa using h.toRereadable, by simp [h.content_eq]⟩

theorem flatMap {α : Type} {l : List α} {f : α → Text} {g : α → List Content}
    (h : ∀ a ∈ l, Writes (f a) (g a)) : Writes (l.flatMap f) (l.flatMap g) := by
  induction l with
  | nil => exact .nil
  | cons a l ih =>
    rw [List.flatMap_cons, List.flatMap_cons]
    rw [List.forall_mem_cons] at h
    exact h.1.append (ih h.2)

/-- Every line without a tag becomes one item. -/
theorem map_content?_streamFrom {lines : List Text} (h : ∀ line ∈ lines, taggedRest? line = none)
    (file : Text) (n : Nat) :
    (Token.streamFrom file n lines).map Item.content? =
      (lines.map Content.ofLine).map some := by
  fun_induction Token.streamFrom file n lines with
  | case1 => rfl
  | case2 n line rest loc d hd ih =>
    rw [List.forall_mem_cons] at h
    rw [List.map_cons, ih h.2, List.map_cons, List.map_cons, Content.ofLine_of_definition hd]
    rfl
  | case3 n line rest loc tag first htag more _ ih =>
    rw [h line List.mem_cons_self] at htag
    cases htag
  | case4 n line rest loc htag _ _ =>
    rw [h line List.mem_cons_self] at htag
    cases htag
  | case5 n line rest loc htag hd ih =>
    rw [List.forall_mem_cons] at h
    rw [List.map_cons, ih h.2, List.map_cons, List.map_cons, Content.ofLine_of_ordinary hd]
    rfl

/-- **What was written is what is read**: no error, no tagged block, and the contents in order. -/
theorem stream (h : Writes text contents) (file : Text) :
    (Token.stream file text).map Item.content? = contents.map some := by
  obtain ⟨lines, rfl, hlines, rfl⟩ := h
  have hends : ∀ line ∈ lines, '\n' ∉ line ∧ line.getLast? ≠ some '\r' :=
    fun line hline => ⟨(hlines line hline).newline_notMem, (hlines line hline).return_notLast⟩
  rw [Token.stream, lines_unlines hends]
  exact map_content?_streamFrom (fun line hline => (hlines line hline).untagged) file 0

end Writes

end TexSymbols
