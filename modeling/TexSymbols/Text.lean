/-!
# Text

Text is a list of characters, so that every scanner in this library is a recursion on a list.  This file
holds the operations that the other modules share: lines, splitting at a character, searching, joining.

* `Text.lines` — the lines of a text: a line ends at a line feed, one carriage return before it is dropped,
  and there is no empty last line.
* `Text.splitOn`, `Text.splitOnce`, `Text.splitLast` — cutting at every, at the first, at the last occurrence
  of a character; `Text.join` puts pieces together again.
* `Text.occursIn`, `Text.removePrefix?` — searching for a piece of text.
-/

namespace TexSymbols

/-- Text as the list of its characters. -/
abbrev Text := List Char

instance : Coe String Text := ⟨String.toList⟩

instance instLawfulBEqText : LawfulBEq Text := inferInstanceAs (LawfulBEq (List Char))

namespace Text

/-- The text as a string, for output. -/
def toString (t : Text) : String := String.ofList t

/-- Lines end at a line feed; a carriage return directly before it belongs to the line end, any other one to
the line.  What follows the last line feed is a line only if it is not empty. -/
def lines : Text → List Text
  | [] => []
  | '\r' :: '\n' :: r => [] :: lines r
  | '\n' :: r => [] :: lines r
  | c :: r =>
    match lines r with
    | [] => [[c]]
    | l :: ls => (c :: l) :: ls

/-- The pieces between the occurrences of `sep`; one more piece than there are occurrences. -/
def splitOn (sep : Char) : Text → List Text
  | [] => [[]]
  | c :: r =>
    if c = sep then [] :: splitOn sep r
    else
      match splitOn sep r with
      | [] => [[c]]
      | p :: ps => (c :: p) :: ps

/-- What stands before and after the first `sep`. -/
def splitOnce (sep : Char) : Text → Option (Text × Text)
  | [] => none
  | c :: r => if c = sep then some ([], r) else (splitOnce sep r).map fun p => (c :: p.1, p.2)

/-- What stands before and after the last `sep`. -/
def splitLast (sep : Char) : Text → Option (Text × Text)
  | [] => none
  | c :: r =>
    match splitLast sep r with
    | some p => some (c :: p.1, p.2)
    | none => if c = sep then some ([], r) else none

/-- The pieces with `sep` between neighbours. -/
def join (sep : Text) : List Text → Text
  | [] => []
  | [p] => p
  | p :: q :: ps => p ++ sep ++ join sep (q :: ps)

/-- What follows `piece` in a text that starts with it. -/
def removePrefix? : Text → Text → Option Text
  | [], t => some t
  | _ :: _, [] => none
  | p :: ps, c :: cs => if p = c then removePrefix? ps cs else none

/-- Whether `piece` stands somewhere in the text. -/
def occursIn (piece : Text) : Text → Bool
  | [] => piece.isEmpty
  | c :: r => piece.isPrefixOf (c :: r) || occursIn piece r

/-- The order of texts by code points, which is also the order of their UTF-8 bytes. -/
def le : Text → Text → Bool
  | [], _ => true
  | _ :: _, [] => false
  | a :: s, b :: t => a.toNat < b.toNat || (a == b && le s t)

/-- The text with as many blanks in front as it lacks to `width`. -/
def padLeft (width : Nat) (t : Text) : Text := List.replicate (width - t.length) ' ' ++ t

/-- The elements of a list without later repetitions. -/
def distinct (ts : List Text) : List Text :=
  ts.foldl (fun seen t => if t ∈ seen then seen else seen ++ [t]) []

/-- What follows the separator is shorter than the text. -/
theorem length_splitOnce_lt {sep : Char} {t : Text} {p : Text × Text} (h : splitOnce sep t = some p) :
    p.2.length < t.length := by
  induction t generalizing p with
  | nil => simp [splitOnce] at h
  | cons c r ih =>
    unfold splitOnce at h
    split at h
    · cases h; simp
    · obtain ⟨q, hq, rfl⟩ := Option.map_eq_some_iff.1 h
      have := ih hq
      exact Nat.lt_succ_of_lt this

theorem removePrefix?_eq_some {p t r : Text} : removePrefix? p t = some r ↔ t = p ++ r := by
  induction p generalizing t with
  | nil => simp [removePrefix?, eq_comm]
  | cons a p ih =>
    cases t with
    | nil => simp [removePrefix?]
    | cons b t =>
      by_cases h : a = b
      · subst h; simp [removePrefix?, ih]
      · simp [removePrefix?, h, Ne.symm h]

end Text

end TexSymbols
