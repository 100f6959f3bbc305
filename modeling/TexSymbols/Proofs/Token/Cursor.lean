import TexSymbols.Proofs.Lookahead
import TexSymbols.Proofs.Token.Stream

/-!
# Pulling items from a cursor over lines

A stream can also be pulled item by item from a cursor over the numbered lines, which looks at the
line behind a block before it leaves it to the next item.

* `Lookahead.nextWhile` — consumes items as long as a predicate accepts them.
* `Token.pull?`, `Token.Pulls` — the next item, and all of them.
* `Token.pulls_streamFrom` — no line is lost, and every number is right: the items are those of the
  stream.
-/

namespace TexSymbols

namespace Lookahead

variable {α : Type}

/-- Consume items as long as `p` accepts them. -/
def nextWhile (p : α → Bool) (s : Lookahead α) : List α × Lookahead α :=
  match _h : s.nextIf p with
  | (some x, t) => (x :: (nextWhile p t).1, (nextWhile p t).2)
  | (none, t) => ([], t)
termination_by s.toList.length
decreasing_by
  all_goals
    have := s.length_nextIf_lt p (by rw [_h]; rfl)
    rwa [_h] at this

theorem exists_next_eq_some {s : Lookahead α} {x : α} {l : List α} (h : s.toList = x :: l) :
    ∃ t, s.next = (some x, t) ∧ t.toList = l := by
  obtain ⟨hhead, htail⟩ := s.next_eq
  rw [h] at hhead htail
  exact ⟨s.next.2, Prod.ext hhead rfl, htail⟩

theorem next_eq_none {s : Lookahead α} (h : s.toList = []) : s.next = (none, s) := by
  obtain ⟨hbuffer, hsource⟩ := List.append_eq_nil_iff.1 h
  simp [next, hbuffer, hsource]

/-- What is consumed is the longest beginning that `p` accepts. -/
theorem nextWhile_eq (p : α → Bool) (s : Lookahead α) :
    (s.nextWhile p).1 = s.toList.takeWhile p ∧
      (s.nextWhile p).2.toList = s.toList.dropWhile p := by
  fun_induction nextWhile p s with
  | case1 s x t h ih =>
    obtain ⟨hlist, hx⟩ := toList_of_nextIf_eq_some h
    rw [hlist, List.takeWhile_cons_of_pos hx, List.dropWhile_cons_of_pos hx, ih.1]
    exact ⟨rfl, ih.2⟩
  | case2 s t h =>
    obtain ⟨hlist, hhead⟩ := toList_of_nextIf_eq_none h
    cases hs : s.toList with
    | nil => simp [hlist, hs]
    | cons x xs =>
      have hx : ¬ p x = true := by simp [hhead x (by simp [hs])]
      rw [List.takeWhile_cons_of_neg hx, List.dropWhile_cons_of_neg hx, hlist, hs]
      exact ⟨rfl, rfl⟩

end Lookahead

/-! ## Numbered lines -/

section Numbered

variable {α : Type} (p : α → Bool)

theorem takeWhile_zipIdx (l : List α) (n : Nat) :
    ((l.zipIdx n).takeWhile fun e => p e.1).map Prod.fst = l.takeWhile p := by
  induction l generalizing n with
  | nil => rfl
  | cons x l ih =>
    rw [List.zipIdx_cons]
    cases hx : p x <;> simp [hx, ih]

theorem dropWhile_zipIdx (l : List α) (n : Nat) :
    ((l.zipIdx n).dropWhile fun e => p e.1) =
      (l.dropWhile p).zipIdx (n + (l.takeWhile p).length) := by
  induction l generalizing n with
  | nil => rfl
  | cons x l ih =>
    rw [List.zipIdx_cons]
    cases hx : p x with
    | false => simp [hx]
    | true =>
      have hlength : n + ((x :: l).takeWhile p).length = n + 1 + (l.takeWhile p).length := by
        rw [List.takeWhile_cons_of_pos hx, List.length_cons]
        omega
      rw [hlength, List.dropWhile_cons_of_pos hx, ← ih, List.dropWhile_cons_of_pos]
      exact hx

end Numbered

namespace Token

/-- The next item; a block takes the plain comment lines behind it. -/
def pull? (file : Text) (lines : Lookahead (Text × Nat)) :
    Option (Item × Lookahead (Text × Nat)) :=
  match lines.next with
  | (none, _) => none
  | (some (line, index), lines) =>
    let loc := Location.ofLine file (index + 1) line
    match Definition.read line, (taggedRest? line).map (Text.splitOnce ':') with
    | .definition d, _ => some (.ok (.definition d loc), lines)
    | _, some (some (tag, first)) =>
      let (more, lines) := lines.nextWhile fun e => isPlainComment e.1
      some (.ok (.block (Block.ofComment tag first (more.map Prod.fst) loc)), lines)
    | _, some none => some (.error (.unterminatedTag loc), lines)
    | _, none => some (.ok (.passthrough line loc), lines)

/-- Pulling from the cursor until it ends gives the items. -/
inductive Pulls (file : Text) : Lookahead (Text × Nat) → List Item → Prop
  | ended {lines : Lookahead (Text × Nat)} : pull? file lines = none → Pulls file lines []
  | item {lines rest : Lookahead (Text × Nat)} {item : Item} {items : List Item} :
      pull? file lines = some (item, rest) → Pulls file rest items →
        Pulls file lines (item :: items)

/-- **No line is lost and every number is right**: pulling from a cursor over the numbered lines
gives the items of the stream. -/
theorem pulls_streamFrom (file : Text) (n : Nat) (lines : List Text) :
    ∀ cursor : Lookahead (Text × Nat), cursor.toList = lines.zipIdx n →
      Pulls file cursor (streamFrom file n lines) := by
  fun_induction streamFrom file n lines with
  | case1 n =>
    intro cursor h
    refine .ended ?_
    rw [pull?, Lookahead.next_eq_none h]
  | case2 n line rest loc d hd ih =>
    intro cursor h
    obtain ⟨tail, hnext, htail⟩ := Lookahead.exists_next_eq_some h
    refine .item ?_ (ih tail htail)
    simp only [pull?, hnext, hd]
    rfl
  | case3 n line rest loc tag first htag more hd ih =>
    intro cursor h
    obtain ⟨tail, hnext, htail⟩ := Lookahead.exists_next_eq_some h
    obtain ⟨hmore, hrest⟩ := tail.nextWhile_eq fun e => isPlainComment e.1
    rw [htail] at hmore hrest
    rw [dropWhile_zipIdx] at hrest
    refine .item ?_ (ih _ hrest)
    simp only [pull?, hnext, htag, hmore, takeWhile_zipIdx]
    rfl
  | case4 n line rest loc htag hd ih =>
    intro cursor h
    obtain ⟨tail, hnext, htail⟩ := Lookahead.exists_next_eq_some h
    refine .item ?_ (ih tail htail)
    simp only [pull?, hnext, htag]
    rfl
  | case5 n line rest loc htag hd ih =>
    intro cursor h
    obtain ⟨tail, hnext, htail⟩ := Lookahead.exists_next_eq_some h
    refine .item ?_ (ih tail htail)
    simp only [pull?, hnext, htag]
    rfl

end Token

end TexSymbols
