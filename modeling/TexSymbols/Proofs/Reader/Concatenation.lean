import TexSymbols.Proofs.Reader.Alike
import TexSymbols.Proofs.Text.Lines
import TexSymbols.Proofs.Token.Stream

/-!
# One text behind another

* `Location.Moved` — the same line of a text, further down and in a file of any name.
* `Token.streamFrom_append` — the items of two lists of lines, if the second one does not begin
  within a block; `Token.streamFrom_moved` — lines further down give the same items.
* `ofItems_append` — their groups, if the second list does not begin within a run.
* `BeginsSection` — a text that begins with a section tag does neither.
-/

namespace TexSymbols

open ItemGroup

/-! ## Where the second list stops the first -/

section Stops

variable {α : Type} {p : α → Bool} {later : List α}

theorem takeWhile_append_of_stop (l : List α) (h : ∀ x ∈ later.head?, p x = false) :
    (l ++ later).takeWhile p = l.takeWhile p := by
  induction l with
  | nil =>
    cases later with
    | nil => rfl
    | cons x later => exact List.takeWhile_cons_of_neg (by simp [h x rfl])
  | cons x l ih => rw [List.cons_append, List.takeWhile_cons, List.takeWhile_cons, ih]

theorem dropWhile_append_of_stop (l : List α) (h : ∀ x ∈ later.head?, p x = false) :
    (l ++ later).dropWhile p = l.dropWhile p ++ later := by
  induction l with
  | nil =>
    cases later with
    | nil => rfl
    | cons x later => exact List.dropWhile_cons_of_neg (by simp [h x rfl])
  | cons x l ih =>
    rw [List.cons_append, List.dropWhile_cons, List.dropWhile_cons, ih]
    split <;> rfl

end Stops

/-! ## Locations -/

/-- The same line, `n` lines further down, in a file of any name. -/
structure Location.Moved (n : Nat) (l l' : Location) : Prop where
  line_eq : l'.line = l.line + n
  text_eq : l'.text = l.text

theorem Location.moved_ofLine (file file' : Text) (line n : Nat) (text : Text) :
    (ofLine file (line + 1) text).Moved n (ofLine file' (line + n + 1) text) :=
  ⟨Nat.add_right_comm .., rfl⟩

/-! ## Items -/

namespace Token

variable {line : Text} {d : Definition}

theorem streamFrom_cons_definition (h : Definition.read line = .definition d) (file : Text)
    (n : Nat) (rest : List Text) : streamFrom file n (line :: rest) =
      .ok (.definition d (.ofLine file (n + 1) line)) :: streamFrom file (n + 1) rest := by
  rw [streamFrom, h]

theorem streamFrom_cons_block {tag first : Text}
    (h : (taggedRest? line).map (Text.splitOnce ':') = some (some (tag, first))) (file : Text)
    (n : Nat) (rest : List Text) : streamFrom file n (line :: rest) =
      (Block.ofComment tag first (rest.takeWhile isPlainComment)
          (.ofLine file (n + 1) line)).item ::
        streamFrom file (n + 1 + (rest.takeWhile isPlainComment).length)
          (rest.dropWhile isPlainComment) := by
  obtain ⟨comment, hcomment, -⟩ := Option.map_eq_some_iff.1 h
  rw [streamFrom, h, Definition.read_of_tagged hcomment]
  rfl

theorem streamFrom_cons_unterminated (h : (taggedRest? line).map (Text.splitOnce ':') = some none)
    (file : Text) (n : Nat) (rest : List Text) : streamFrom file n (line :: rest) =
      .error (.unterminatedTag (.ofLine file (n + 1) line)) :: streamFrom file (n + 1) rest := by
  obtain ⟨comment, hcomment, -⟩ := Option.map_eq_some_iff.1 h
  rw [streamFrom, h, Definition.read_of_tagged hcomment]

theorem streamFrom_cons_passthrough (h : (taggedRest? line).map (Text.splitOnce ':') = none)
    (hd : ∀ d, Definition.read line ≠ .definition d) (file : Text) (n : Nat) (rest : List Text) :
    streamFrom file n (line :: rest) =
      .ok (.passthrough line (.ofLine file (n + 1) line)) :: streamFrom file (n + 1) rest := by
  rw [streamFrom, h]
  cases hread : Definition.read line with
  | definition d => exact absurd hread (hd d)
  | oversizedArity => rfl
  | other => rfl

/-- **Lines behind others give their items behind those of the others**, unless the first of them
goes on with a block. -/
theorem streamFrom_append (file : Text) (n : Nat) (lines : List Text) {later : List Text}
    (h : ∀ line ∈ later.head?, isPlainComment line = false) :
    streamFrom file n (lines ++ later) =
      streamFrom file n lines ++ streamFrom file (n + lines.length) later := by
  have hnext : ∀ (n : Nat) (line : Text) (rest : List Text),
      n + (line :: rest).length = n + 1 + rest.length := by
    intro n line rest
    rw [List.length_cons]
    omega
  fun_induction streamFrom file n lines with
  | case1 n => rfl
  | case2 n line rest loc d hd ih =>
    rw [List.cons_append, streamFrom_cons_definition hd, ih, hnext]
    rfl
  | case3 n line rest loc tag first htag more hd ih =>
    -- the comment lines that the block takes are the same
    have hlength : n + (line :: rest).length =
        n + 1 + more.length + (rest.dropWhile isPlainComment).length := by
      have hsplit : more.length + (rest.dropWhile isPlainComment).length = rest.length := by
        rw [← List.length_append, List.takeWhile_append_dropWhile]
      rw [hnext]
      omega
    rw [List.cons_append, streamFrom_cons_block htag, takeWhile_append_of_stop rest h,
      dropWhile_append_of_stop rest h, ih, hlength]
    rfl
  | case4 n line rest loc htag hd ih =>
    rw [List.cons_append, streamFrom_cons_unterminated htag, ih, hnext]
    rfl
  | case5 n line rest loc htag hd ih =>
    rw [List.cons_append, streamFrom_cons_passthrough htag hd, ih, hnext]
    rfl

/-- Lines further down, in another file. -/
theorem streamFrom_moved (file file' : Text) (n moved : Nat) (lines : List Text) :
    List.Forall₂ (Item.Alike (Location.Moved moved)) (streamFrom file n lines)
      (streamFrom file' (n + moved) lines) := by
  fun_induction streamFrom file n lines with
  | case1 n =>
    rw [streamFrom]
    exact .nil
  | case2 n line rest loc d hd ih =>
    rw [Nat.add_right_comm] at ih
    rw [streamFrom_cons_definition hd]
    exact .cons (.definition (Location.moved_ofLine ..)) ih
  | case3 n line rest loc tag first htag more hd ih =>
    have hline : n + 1 + more.length + moved = n + moved + 1 + more.length := by omega
    rw [hline] at ih
    rw [streamFrom_cons_block htag]
    exact .cons (.block (.mk (Location.moved_ofLine ..))) ih
  | case4 n line rest loc htag hd ih =>
    rw [Nat.add_right_comm] at ih
    rw [streamFrom_cons_unterminated htag]
    exact .cons (.unterminated (Location.moved_ofLine ..)) ih
  | case5 n line rest loc htag hd ih =>
    rw [Nat.add_right_comm] at ih
    rw [streamFrom_cons_passthrough htag hd]
    exact .cons (.passthrough (Location.moved_ofLine ..)) ih

end Token

/-! ## Groups -/

theorem runOf_append (items : List Item) {later : List Item}
    (h : ∀ item ∈ later.head?, isTrailing item = false) : runOf (items ++ later) = runOf items := by
  exact congrArg (List.filterMap Item.block?) (takeWhile_append_of_stop items h)

theorem behindRun_append (items : List Item) {later : List Item}
    (h : ∀ item ∈ later.head?, isTrailing item = false) :
    behindRun (items ++ later) = behindRun items ++ later :=
  dropWhile_append_of_stop items h

/-- **Items behind others give their groups behind those of the others**, unless the first of them
goes on with a run. -/
theorem ofItems_append (items : List Item) {later : List Item}
    (h : ∀ item ∈ later.head?, isTrailing item = false) :
    ofItems (items ++ later) = ofItems items ++ ofItems later := by
  fun_induction ofItems items with
  | case1 => rfl
  | case2 item rest hhead ih =>
    rw [List.cons_append, ofItems_cons_of_isHead hhead, runOf_append rest h,
      behindRun_append rest h, ih, List.cons_append]
  | case3 item rest hhead ih =>
    rw [List.cons_append, ofItems_cons_of_not_isHead (Bool.eq_false_iff.2 hhead), ih,
      List.cons_append]

/-! ## Texts that begin with a section -/

/-- The first line of the text is a tagged comment that declares a section. -/
def BeginsSection (text : Text) : Prop :=
  ∃ line rest comment tag content, Text.lines text = line :: rest ∧
    taggedRest? line = some comment ∧ Text.splitOnce ':' comment = some (tag, content) ∧
    Text.trim tag = Tag.declares

namespace BeginsSection

variable {text : Text}

theorem isPlainComment_head? (h : BeginsSection text) :
    ∀ line ∈ (Text.lines text).head?, isPlainComment line = false := by
  obtain ⟨line, rest, comment, tag, content, hlines, hcomment, -, -⟩ := h
  rw [hlines]
  intro first hfirst
  obtain rfl := Option.some.inj (Option.mem_def.1 hfirst)
  exact isPlainComment_of_tagged hcomment

/-- Its first item is a section tag. -/
theorem exists_items (h : BeginsSection text) (file : Text) (n : Nat) :
    ∃ b : Block, b.tag = Tag.declares ∧
      ∃ items, Token.streamFrom file n (Text.lines text) = b.item :: items := by
  obtain ⟨line, rest, comment, tag, content, hlines, hcomment, hsplit, htag⟩ := h
  have hparts : (taggedRest? line).map (Text.splitOnce ':') = some (some (tag, content)) := by
    rw [hcomment, Option.map_some, hsplit]
  rw [hlines, Token.streamFrom_cons_block hparts]
  exact ⟨_, htag, _, rfl⟩

/-- So it does not go on with a run. -/
theorem isTrailing_head? (h : BeginsSection text) (file : Text) (n : Nat) :
    ∀ item ∈ (Token.streamFrom file n (Text.lines text)).head?, isTrailing item = false := by
  obtain ⟨b, htag, items, hitems⟩ := h.exists_items file n
  rw [hitems]
  intro first hfirst
  obtain rfl := Option.some.inj (Option.mem_def.1 hfirst)
  simp [isTrailing_item, htag]

/-- And its first group declares a section. -/
theorem exists_groups (h : BeginsSection text) (file : Text) (n : Nat) :
    ∃ (b : Block) (g : ItemGroup) (groups : List ItemGroup), b.tag = Tag.declares ∧
      g.first = b.item ∧ ofItems (Token.streamFrom file n (Text.lines text)) = g :: groups := by
  obtain ⟨b, htag, items, hitems⟩ := h.exists_items file n
  have hhead : isHead b.item = true := by simp [isHead, Block.item, htag]
  rw [hitems, ofItems_cons_of_isHead hhead]
  exact ⟨b, _, _, htag, rfl, rfl⟩

end BeginsSection

/-- **The groups of two texts, one behind the other**, are those of the first one and then those of
the second one, moved down by the lines of the first one. -/
theorem groups_append (file : Text) {a b : Text} (ha : a = [] ∨ a.getLast? = some '\n')
    (hb : BeginsSection b) : ofItems (Token.streamFrom file 0 (Text.lines (a ++ b))) =
      ofItems (Token.streamFrom file 0 (Text.lines a)) ++
        ofItems (Token.streamFrom file (Text.lines a).length (Text.lines b)) := by
  have hstop := hb.isTrailing_head? file (Text.lines a).length
  rw [Text.lines_append_of_ended ha, Token.streamFrom_append file 0 _ hb.isPlainComment_head?,
    Nat.zero_add, ofItems_append _ hstop]

end TexSymbols
