import Mathlib
import TexSymbols.Proofs.Text.Lines
import TexSymbols.Proofs.Text.Trim
import TexSymbols.Proofs.Token.Cursor

/-!
# Every line belongs to one item

* `Stretch` — a line, the comment lines that continue it, and the item that they give.
* `Stretch.Sound` — what an item has from its lines; `Stretch.Precedes` — how two neighbours fit
  together.
* `Partition` — stretches that make up some lines and their items; `exists_partition` — the items
  of a stream are such stretches.
* `Token.stream_partition` — the same for a whole text, however its lines are pulled.
-/

namespace TexSymbols

/-- A comment line without a tag: its first mark is `%`, and no colon follows. -/
def PlainComment (line : Text) : Prop :=
  ∃ rest, Text.trimStart line = '%' :: rest ∧ rest.head? ≠ some ':'

theorem isPlainComment_iff {line : Text} : isPlainComment line = true ↔ PlainComment line := by
  simp only [isPlainComment, taggedRest?, PlainComment, Bool.and_eq_true, bne_iff_ne, beq_iff_eq]
  cases h : Text.trimStart line with
  | nil => simp [Text.removePrefix?]
  | cons c rest =>
    by_cases hc : c = '%'
    · subst hc
      cases rest with
      | nil => simp [Text.removePrefix?]
      | cons d rest =>
        by_cases hd : d = ':' <;> simp [Text.removePrefix?, hd, eq_comm]
    · simp [Text.removePrefix?, hc, eq_comm]

/-! ## Kinds of lines and items -/

/-- What a line can give. -/
inductive LineKind
  | definition
  | block
  | unterminated
  | passthrough
deriving DecidableEq

/-- What a line gives that no block takes. -/
def LineKind.ofLine (line : Text) : LineKind :=
  match Definition.read line, taggedRest? line with
  | .definition _, _ => definition
  | _, some rest => if ':' ∈ rest then block else unterminated
  | _, none => passthrough

/-- Where an item begins. -/
def Item.loc : Item → Location
  | .ok token => token.loc
  | .error e => e.loc

def Item.kind : Item → LineKind
  | .ok (.definition ..) => .definition
  | .ok (.block _) => .block
  | .ok (.passthrough ..) => .passthrough
  | .error _ => .unterminated

namespace LineKind

variable {line : Text}

theorem ofLine_of_definition {d : Definition} (h : Definition.read line = .definition d) :
    ofLine line = definition := by
  rw [ofLine, h]

theorem ofLine_of_tagged {rest : Text} (h : taggedRest? line = some rest) :
    ofLine line = if ':' ∈ rest then block else unterminated := by
  rw [ofLine, Definition.read_of_tagged h, h]

theorem ofLine_of_splitOnce {parts : Text × Text}
    (h : (taggedRest? line).map (Text.splitOnce ':') = some (some parts)) :
    ofLine line = block := by
  obtain ⟨rest, hrest, hparts⟩ := Option.map_eq_some_iff.1 h
  obtain ⟨rfl, -⟩ := Text.splitOnce_eq_some_iff.1 hparts
  rw [ofLine_of_tagged hrest, if_pos (by simp)]

theorem ofLine_of_unterminated (h : Unterminated line) : ofLine line = unterminated := by
  obtain ⟨rest, hrest, hcolon⟩ := h
  rw [ofLine_of_tagged hrest, if_neg hcolon]

theorem ofLine_of_ordinary (h : taggedRest? line = none)
    (hd : ∀ d, Definition.read line ≠ .definition d) : ofLine line = passthrough := by
  rw [ofLine, h]
  cases hread : Definition.read line with
  | definition d => exact absurd hread (hd d)
  | oversizedArity digits command => rfl
  | other => rfl

end LineKind

/-! ## Locations -/

/-- A location has the text of its line without carriage returns at the end. -/
theorem Location.exists_eq_text_append {file line : Text} {n : Nat} (h : '\n' ∉ line) :
    ∃ returns, line = (Location.ofLine file n line).text ++ returns ∧
      (∀ c ∈ returns, c = '\r') ∧ (Location.ofLine file n line).text.getLast? ≠ some '\r' := by
  let ends (c : Char) : Bool := c = '\n' || c = '\r'
  have hsplit : line.reverse.takeWhile ends ++ line.reverse.dropWhile ends = line.reverse :=
    List.takeWhile_append_dropWhile
  refine ⟨(line.reverse.takeWhile ends).reverse, ?_, ?_, ?_⟩
  · exact (List.reverse_eq_iff.1 hsplit.symm).trans (List.reverse_append ..)
  · intro c hc
    rw [List.mem_reverse] at hc
    have hends : ends c = true := List.mem_takeWhile_imp hc
    have hline : c ≠ '\n' := by
      rintro rfl
      exact h (List.mem_reverse.1 ((List.takeWhile_prefix ends).subset hc))
    simpa [ends, hline] using hends
  · show (line.reverse.dropWhile ends).reverse.getLast? ≠ some '\r'
    rw [List.getLast?_reverse]
    intro hhead
    have hnot := List.head?_dropWhile_not ends line.reverse
    rw [hhead] at hnot
    cases hnot

/-! ## Stretches -/

/-- What an item has from its first line, apart from its location. -/
def Item.FromLine (line : Text) : Item → Prop
  | .ok (.definition d _) => Definition.read line = .definition d
  | .ok (.block b) => ∀ content ∈ b.lines, content ≠ [] ∧ Text.trim content = content
  | .ok (.passthrough kept _) => kept = line
  | .error e => e = .unterminatedTag e.loc

/-- A line, the comment lines that continue it, and the item that they give. -/
structure Stretch where
  item : Item
  first : Text
  more : List Text

namespace Stretch

def lines (s : Stretch) : List Text := s.first :: s.more

/-- What an item has from its lines. -/
structure Sound (file : Text) (s : Stretch) : Prop where
  /-- Which kind of item it is depends on the first line alone. -/
  kind_eq : s.item.kind = .ofLine s.first
  fromLine : s.item.FromLine s.first
  /-- Only a block goes on over further lines, which are plain comments. -/
  more_eq_nil : s.item.kind ≠ .block → s.more = []
  more_plain : ∀ line ∈ s.more, PlainComment line
  file_eq : s.item.loc.file = file
  /-- The location has the first line, without carriage returns at its end. -/
  text_eq : ∃ returns, s.first = s.item.loc.text ++ returns ∧ (∀ c ∈ returns, c = '\r') ∧
    s.item.loc.text.getLast? ≠ some '\r'

/-- The stretch `t` can follow `s`: its number is the next one, and it does not go on with a
block. -/
structure Precedes (s t : Stretch) : Prop where
  line_eq : t.item.loc.line = s.item.loc.line + s.lines.length
  maximal : s.item.kind = .block → ¬ PlainComment t.first

end Stretch

theorem trim_commentContent (line : Text) :
    Text.trim (commentContent line) = commentContent line :=
  Text.trim_trimStart_of_suffix (List.dropWhile_suffix _)

theorem contents_ofComment {tag first : Text} {more : List Text} {loc : Location} :
    ∀ line ∈ (Block.ofComment tag first more loc).lines, line ≠ [] ∧ Text.trim line = line := by
  intro line hline
  obtain ⟨hmem, hne⟩ := List.mem_filter.1 hline
  refine ⟨of_decide_eq_true hne, ?_⟩
  rcases List.mem_cons.1 hmem with rfl | hmem
  · exact Text.trim_trim first
  · obtain ⟨comment, -, rfl⟩ := List.mem_map.1 hmem
    exact trim_commentContent comment

/-! ## Partitions -/

/-- The stretches make up the lines that follow line `n` of a file, and give the items. -/
structure Partition (file : Text) (n : Nat) (lines : List Text) (items : List Item)
    (stretches : List Stretch) : Prop where
  items_eq : stretches.map Stretch.item = items
  /-- Every line stands in one stretch, in order. -/
  lines_eq : stretches.flatMap Stretch.lines = lines
  sound : ∀ s ∈ stretches, s.Sound file
  first_line : ∀ s ∈ stretches.head?, s.item.loc.line = n + 1
  chain : stretches.IsChain Stretch.Precedes

namespace Partition

variable {file : Text} {n : Nat} {lines : List Text} {items : List Item} {s : Stretch}
  {stretches : List Stretch}

theorem nil : Partition file n [] [] [] := ⟨rfl, rfl, by simp, by simp, .nil⟩

/-- One more stretch in front, which a plain comment line must not follow if it is a block. -/
theorem cons {m : Nat} {after : List Text} (h : Partition file m after items stretches)
    (hs : s.Sound file) (hline : s.item.loc.line = n + 1) (hm : n + s.lines.length = m)
    (hlines : s.lines ++ after = lines)
    (hmaximal : s.item.kind = .block → ∀ line ∈ after.head?, isPlainComment line = false) :
    Partition file n lines (s.item :: items) (s :: stretches) where
  items_eq := by rw [List.map_cons, h.items_eq]
  lines_eq := by rw [List.flatMap_cons, h.lines_eq, hlines]
  sound := List.forall_mem_cons.2 ⟨hs, h.sound⟩
  first_line t ht := by
    obtain rfl := Option.some.inj (Option.mem_def.1 ht)
    exact hline
  chain := by
    refine List.isChain_cons.2 ⟨fun t ht => ⟨?_, fun hblock hplain => ?_⟩, h.chain⟩
    · rw [h.first_line t ht, hline]
      omega
    · have hhead : t.first ∈ after.head? := by
        obtain ⟨later, rfl⟩ := List.head?_eq_some_iff.1 (Option.mem_def.1 ht)
        rw [← h.lines_eq]
        rfl
      have hnot := hmaximal hblock t.first hhead
      rw [isPlainComment_iff.2 hplain] at hnot
      cases hnot

theorem sum_lengths (h : Partition file n lines items stretches) :
    (stretches.map fun s => s.lines.length).sum = lines.length := by
  rw [← h.lines_eq, List.length_flatMap]

end Partition

section Stream

variable {file line : Text} {n : Nat}

theorem Stretch.Sound.of_line {item : Item} (hline : '\n' ∉ line)
    (hloc : item.loc = .ofLine file n line) (hkind : item.kind = .ofLine line)
    (hitem : item.FromLine line) :
    Stretch.Sound file ⟨item, line, []⟩ where
  kind_eq := hkind
  fromLine := hitem
  more_eq_nil _ := rfl
  more_plain := by simp
  file_eq := by rw [hloc]; rfl
  text_eq := by rw [hloc]; exact Location.exists_eq_text_append hline

theorem Stretch.Sound.of_block {b : Block} {rest : List Text} (hline : '\n' ∉ line)
    (hloc : b.loc = .ofLine file n line) (hkind : .ofLine line = LineKind.block)
    (hitem : Item.FromLine line (.ok (.block b))) :
    Stretch.Sound file ⟨.ok (.block b), line, rest.takeWhile isPlainComment⟩ where
  kind_eq := hkind.symm
  fromLine := hitem
  more_eq_nil hne := absurd rfl hne
  more_plain _ hmem := isPlainComment_iff.1 (List.mem_takeWhile_imp hmem)
  file_eq := by rw [Item.loc, Token.loc, hloc]; rfl
  text_eq := by rw [Item.loc, Token.loc, hloc]; exact Location.exists_eq_text_append hline

/-- **Every line of a stream stands in the stretch of one item.** -/
theorem exists_partition (file : Text) (n : Nat) (lines : List Text)
    (hlines : ∀ line ∈ lines, '\n' ∉ line) :
    ∃ stretches, Partition file n lines (Token.streamFrom file n lines) stretches := by
  fun_induction Token.streamFrom file n lines with
  | case1 n => exact ⟨[], .nil⟩
  | case2 n line rest loc d hd ih =>
    obtain ⟨hline, hrest⟩ := List.forall_mem_cons.1 hlines
    obtain ⟨stretches, hstretches⟩ := ih hrest
    have hsound : Stretch.Sound file ⟨.ok (.definition d loc), line, []⟩ :=
      .of_line hline rfl (LineKind.ofLine_of_definition hd).symm hd
    exact ⟨_, hstretches.cons hsound rfl rfl rfl (by simp [Item.kind])⟩
  | case3 n line rest loc tag first htag more hd ih =>
    obtain ⟨hline, hrest⟩ := List.forall_mem_cons.1 hlines
    have hsuffix := List.dropWhile_suffix isPlainComment (l := rest)
    obtain ⟨stretches, hstretches⟩ := ih fun l hl => hrest l (hsuffix.subset hl)
    have hsound : Stretch.Sound file ⟨.ok (.block (.ofComment tag first more loc)), line, more⟩ :=
      .of_block hline rfl (LineKind.ofLine_of_splitOnce htag) contents_ofComment
    -- what stops the run of comment lines is the line at which the next stretch begins
    refine ⟨_, hstretches.cons hsound rfl ?_ ?_ fun _ l hl => ?_⟩
    · exact (Nat.add_right_comm n 1 more.length).symm
    · exact congrArg (line :: ·) List.takeWhile_append_dropWhile
    · have hnot := List.head?_dropWhile_not isPlainComment rest
      rw [Option.mem_def.1 hl] at hnot
      exact hnot
  | case4 n line rest loc htag hd ih =>
    obtain ⟨hline, hrest⟩ := List.forall_mem_cons.1 hlines
    obtain ⟨stretches, hstretches⟩ := ih hrest
    have hsound : Stretch.Sound file ⟨.error (.unterminatedTag loc), line, []⟩ :=
      .of_line hline rfl (LineKind.ofLine_of_unterminated (unterminated_iff.2 htag)).symm rfl
    exact ⟨_, hstretches.cons hsound rfl rfl rfl (by simp [Item.kind])⟩
  | case5 n line rest loc htag hd ih =>
    obtain ⟨hline, hrest⟩ := List.forall_mem_cons.1 hlines
    obtain ⟨stretches, hstretches⟩ := ih hrest
    have hordinary := LineKind.ofLine_of_ordinary (Option.map_eq_none_iff.1 htag) hd
    have hsound : Stretch.Sound file ⟨.ok (.passthrough line loc), line, []⟩ :=
      .of_line hline rfl hordinary.symm rfl
    exact ⟨_, hstretches.cons hsound rfl rfl rfl (by simp [Item.kind])⟩

end Stream

/-- **The items of a text partition its lines**: pulling the numbered lines through the cursor
gives stretches that hold every line once and in order, so that the line of each item is known
from the lengths of those before it. -/
theorem Token.stream_partition (file text : Text) :
    Pulls file (.ofList (Text.lines text).zipIdx) (stream file text) ∧
      ∃ stretches, Partition file 0 (Text.lines text) (stream file text) stretches ∧
        (stretches.map fun s => s.lines.length).sum = (Text.lines text).length := by
  obtain ⟨stretches, hstretches⟩ :=
    exists_partition file 0 (Text.lines text) fun _ hline => Text.notMem_of_mem_lines hline
  exact ⟨pulls_streamFrom file 0 _ _ (Lookahead.toList_ofList _),
    stretches, hstretches, hstretches.sum_lengths⟩

end TexSymbols
