import TexSymbols.Proofs.Tex.Command
import TexSymbols.Usage

/-!
# Where commands stand in a document

* `Appearance`, `appearances` — the places of commands on the lines of a document, comments apart.
* `labelUpTo`, `firstLabelLine?` — the last label up to a line, and the first line with a label.
* `isSome_labelUpTo` — there is a label up to a line exactly if the first line with one is not
  below it.
-/

namespace TexSymbols

/-- A place where a command stands. -/
structure Appearance where
  command : Text
  /-- The number of its line, counted from one. -/
  line : Nat
  /-- What stands before it on its line. -/
  before : Text
deriving DecidableEq

/-- The use at an appearance, if `mark` gives the labels of lines. -/
def Appearance.use (file : Text) (mark : Nat → Option Text) (a : Appearance) : Use :=
  ⟨file, a.line, mark a.line⟩

/-- The appearances on line `n`. -/
def appearancesOn (n : Nat) (line : Text) : List Appearance :=
  (commandPlaces line).map fun p => ⟨p.2, n, p.1⟩

/-- The lines of a document without their comments. -/
def strippedLines (text : Text) : List Text := (Text.lines text).map stripComment

/-- The appearances on some lines, of which the first one follows line `n`. -/
def appearancesFrom (n : Nat) (lines : List Text) : List Appearance :=
  (lines.zipIdx (n + 1)).flatMap fun l => appearancesOn l.2 l.1

/-- The appearances of commands in a document, in order. -/
def appearances (text : Text) : List Appearance := appearancesFrom 0 (strippedLines text)

/-- The last label on the first `n` lines. -/
def labelUpTo (lines : List Text) (n : Nat) : Option Text :=
  ((lines.take n).flatMap labels).getLast?

/-- The number of the first line that has a label. -/
def firstLabelLine? (lines : List Text) : Option Nat :=
  (lines.findIdx? fun line => !(labels line).isEmpty).map (· + 1)

theorem map_command_appearancesOn (n : Nat) (line : Text) :
    (appearancesOn n line).map Appearance.command = commands line := by
  rw [appearancesOn, List.map_map, ← map_snd_commandPlaces]
  rfl

theorem line_of_mem_appearancesOn {n : Nat} {line : Text} {a : Appearance}
    (h : a ∈ appearancesOn n line) : a.line = n := by
  obtain ⟨p, -, rfl⟩ := List.mem_map.1 h
  rfl

theorem appearancesFrom_append (n : Nat) (lines more : List Text) :
    appearancesFrom n (lines ++ more) =
      appearancesFrom n lines ++ appearancesFrom (n + lines.length) more := by
  unfold appearancesFrom
  rw [List.zipIdx_append, List.flatMap_append]
  congr 3
  omega

theorem appearancesFrom_singleton (n : Nat) (line : Text) :
    appearancesFrom n [line] = appearancesOn (n + 1) line := by
  simp [appearancesFrom]

/-- An appearance stands on the line that has its number. -/
theorem exists_line_of_mem_appearancesFrom {n : Nat} {lines : List Text} {a : Appearance}
    (h : a ∈ appearancesFrom n lines) :
    ∃ i line, a.line = n + i + 1 ∧ lines[i]? = some line ∧ a ∈ appearancesOn a.line line := by
  obtain ⟨⟨line, m⟩, hline, ha⟩ := List.mem_flatMap.1 h
  obtain ⟨hle, hget⟩ := List.mk_mem_zipIdx_iff_le_and_getElem?_sub.1 hline
  have hm : a.line = m := line_of_mem_appearancesOn ha
  refine ⟨m - (n + 1), line, ?_, hget, hm ▸ ha⟩
  omega

/-- One more line: its last label, or the one before. -/
theorem labelUpTo_append (done rest : List Text) (line : Text) :
    labelUpTo (done ++ line :: rest) (done.length + 1) =
      (labels line).getLast?.or (labelUpTo (done ++ line :: rest) done.length) := by
  have htake : (done ++ line :: rest).take (done.length + 1) = done ++ [line] := by
    rw [List.take_length_add_append, List.take_succ_cons, List.take_zero]
  rw [labelUpTo, labelUpTo, htake, List.take_left, List.flatMap_append, List.getLast?_append]
  simp

/-- A label stands on the first `n` lines exactly if the first line with one is among them. -/
theorem isSome_labelUpTo (lines : List Text) (n : Nat) :
    (labelUpTo lines n).isSome = (firstLabelLine? lines).any (· ≤ n) := by
  unfold labelUpTo firstLabelLine?
  induction lines generalizing n with
  | nil => simp
  | cons line lines ih =>
    rw [List.findIdx?_cons]
    cases n with
    | zero => cases h : List.findIdx? _ lines <;> cases labels line <;> simp
    | succ n =>
      have hnext := ih n
      cases hlabels : labels line with
      | nil =>
        rw [List.take_succ_cons, List.flatMap_cons, hlabels, List.nil_append, hnext]
        cases List.findIdx? _ lines <;> simp
      | cons label more =>
        simp [hlabels]

end TexSymbols
