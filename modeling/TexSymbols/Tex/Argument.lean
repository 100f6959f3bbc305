import TexSymbols.Text

/-!
# Arguments of given commands

* `arguments` — the braced arguments that directly follow certain command names.  An argument holds no brace.
* `labels` — the arguments of `\label`.

The command name is searched as a piece of text: what stands before its backslash does not matter.
-/

namespace TexSymbols

/-- The argument that starts right behind an opening brace: everything up to the next brace, which has to be a
closing one. -/
def argumentRest? (t : Text) : Option Text :=
  match t.dropWhile fun c => c != '{' && c != '}' with
  | '}' :: _ => some (t.takeWhile fun c => c != '{' && c != '}')
  | _ => none

/-- The argument of one of the commands `names` (given without backslash) at the beginning of the text. -/
def argumentAt? (names : List Text) (t : Text) : Option Text :=
  names.findSome? fun name => (Text.removePrefix? ('\\' :: (name ++ ['{'])) t).bind argumentRest?

/-- Every argument of one of the commands `names`, in order. -/
def arguments (names : List Text) : Text → List Text
  | [] => []
  | c :: r =>
    match argumentAt? names (c :: r) with
    | some a => a :: arguments names r
    | none => arguments names r

/-- Every target of a `\label`, in order. -/
def labels (t : Text) : List Text := arguments ["label"] t

/-- An argument ends at a closing brace and holds no brace. -/
theorem argumentRest?_eq_some {t a : Text} (h : argumentRest? t = some a) :
    (∃ r, t = a ++ '}' :: r) ∧ '{' ∉ a ∧ '}' ∉ a := by
  unfold argumentRest? at h
  split at h
  · rename_i r hr
    cases h
    have hall := List.all_eq_true.1 (List.all_takeWhile (p := fun c => c != '{' && c != '}') (l := t))
    refine ⟨⟨r, by rw [← hr]; exact List.takeWhile_append_dropWhile.symm⟩, fun hm => ?_, fun hm => ?_⟩
    · simpa using hall _ hm
    · simpa using hall _ hm
  · cases h

end TexSymbols
