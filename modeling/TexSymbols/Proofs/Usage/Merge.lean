import TexSymbols.Proofs.Results
import TexSymbols.Proofs.Usage.Recorded

/-!
# Uses of several documents

* `UsageMap.usesOf` — the uses that a map records of a command, none if it does not know it.
* `UsageMap.usesOf_merge`, `usesOf_usesInAll` — the uses of a command in several documents are those
  in the first one, then those in the second, and so on.
* `firstLabel?` — the label of the first appearance that has one; `firstLabelled_usesInAll` — the
  first use with a label is the first such appearance in all documents.
-/

namespace TexSymbols

namespace UsageMap

variable {command : Text}

/-- The uses of a command, in order. -/
def usesOf (m : UsageMap) (command : Text) : List Use := (m.find? command).getD []

theorem usesOf_record (m : UsageMap) (other : Text) (uses : List Use) :
    usesOf (record m other uses) command =
      usesOf m command ++ if other = command then uses else [] := by
  rw [usesOf, record, OrderedMap.find?_insert]
  by_cases h : command = other
  · subst h
    simp [usesOf]
  · simp [usesOf, h, Ne.symm h]

theorem usesOf_foldl_record (entries : List (Text × List Use)) (m : UsageMap) :
    usesOf (entries.foldl (fun m e => record m e.1 e.2) m) command =
      usesOf m command ++ entries.flatMap fun e => if e.1 = command then e.2 else [] := by
  induction entries generalizing m with
  | nil => simp
  | cons e entries ih =>
    rw [List.foldl_cons, ih, usesOf_record, List.flatMap_cons, List.append_assoc]

/-- A key stands once, so there is one list of uses at most. -/
theorem flatMap_entries_eq {entries : List (Text × List Use)}
    (h : (entries.map Prod.fst).Nodup) :
    (entries.flatMap fun e => if e.1 = command then e.2 else []) =
      ((entries.find? (·.1 = command)).map Prod.snd).getD [] := by
  induction entries with
  | nil => rfl
  | cons e entries ih =>
    rw [List.map_cons, List.nodup_cons] at h
    rw [List.flatMap_cons, ih h.2]
    by_cases he : e.1 = command
    · have hnone : entries.find? (·.1 = command) = none := by
        simp only [List.find?_eq_none, decide_eq_true_eq]
        intro other hother heq
        exact h.1 (he ▸ heq ▸ List.mem_map_of_mem hother)
      rw [hnone, List.find?_cons_of_pos (by simpa using he), if_pos he]
      simp
    · rw [List.find?_cons_of_neg (by simpa using he), if_neg he, List.nil_append]

/-- **The uses in both maps, one after the other.** -/
theorem usesOf_merge (m other : UsageMap) :
    usesOf (merge m other) command = usesOf m command ++ usesOf other command := by
  rw [merge, usesOf_foldl_record, flatMap_entries_eq other.nodup]
  rfl

end UsageMap

open UsageMap

/-- **The uses in all documents, one after the other.** -/
theorem usesOf_usesInAll (documents : List (Text × Text)) (command : Text) :
    usesOf (usesInAll documents) command =
      documents.flatMap fun d => usesOf (usesIn d.1 d.2) command := by
  suffices h : ∀ m : UsageMap,
      usesOf (documents.foldl (fun m d => merge m (usesIn d.1 d.2)) m) command =
        usesOf m command ++ documents.flatMap fun d => usesOf (usesIn d.1 d.2) command from
    h .empty
  induction documents with
  | nil => simp
  | cons d documents ih =>
    intro m
    rw [List.foldl_cons, ih, usesOf_merge, List.flatMap_cons, List.append_assoc]

/-! ## The first label -/

/-- The label of the first appearance of a command in a document that is on a line with a label, or
below one. -/
def firstLabel? (text command : Text) : Option Text :=
  ((appearances text).filter (·.command = command)).findSome? fun a =>
    labelUpTo (strippedLines text) a.line

/-- What is found first is found up to there. -/
theorem findSome?_upToFirst {α β : Type} {f : α → Option β} {p : α → Bool}
    (h : ∀ a, p a = (f a).isSome) (l : List α) :
    (upToFirst p l).findSome? f = l.findSome? f := by
  induction l with
  | nil => rfl
  | cons a l ih =>
    rw [upToFirst, h a, List.findSome?_cons]
    cases hf : f a with
    | some b => simp [hf]
    | none => simp [hf, ih]

/-- No label is lost, although not all uses are recorded. -/
theorem firstLabelled_usesIn (file text command : Text) :
    firstLabelled (usesOf (usesIn file text) command) = firstLabel? text command := by
  obtain ⟨s, hs, hscanned⟩ := scanned_usesIn file text
  have huses : usesOf (usesIn file text) command = _ := hs ▸ hscanned.uses_eq command
  rw [huses, UseScan.usesOf, firstLabelled, List.findSome?_map]
  exact findSome?_upToFirst (fun _ => rfl) _

/-- **The first label of a command in all documents.** -/
theorem firstLabelled_usesInAll (documents : List (Text × Text)) (command : Text) :
    firstLabelled (usesOf (usesInAll documents) command) =
      documents.findSome? fun d => firstLabel? d.2 command := by
  rw [usesOf_usesInAll, firstLabelled, findSome?_flatMap]
  exact congrArg (List.findSome? · documents)
    (funext fun d => firstLabelled_usesIn d.1 d.2 command)

end TexSymbols
