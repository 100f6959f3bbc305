import TexSymbols.ReadError
import TexSymbols.Token
import TexSymbols.Warning

/-!
# From lines to tokens

A line is a definition, a tagged comment (its first mark is `%:`) or an ordinary line.  A tagged comment goes on
over the plain comment lines after it.

* `Item` — a token, or the error of a tagged comment without its second colon; the stream goes on after it.
* `Token.stream` — the items of a text.
* `Item.notices` — what there is to report about an item by itself.
-/

namespace TexSymbols

/-- What the stream of a definitions file holds. -/
abbrev Item := Except ReadError Token

/-- What follows the `%:` of a tagged comment line. -/
def taggedRest? (line : Text) : Option Text := Text.removePrefix? "%:" (Text.trimStart line)

/-- Whether the line is a comment without a tag. -/
def isPlainComment (line : Text) : Bool :=
  Text.removePrefix? "%" (Text.trimStart line) != none && taggedRest? line == none

/-- The text of a comment line without its percent signs and the blanks around it. -/
def commentContent (line : Text) : Text :=
  Text.trimStart ((Text.trim line).dropWhile (· = '%'))

/-- The block of a tagged comment with the given tag and first content, continued by the comment lines `more`. -/
def Block.ofComment (tag first : Text) (more : List Text) (loc : Location) : Block :=
  ⟨Text.trim tag, (Text.trim first :: more.map commentContent).filter (· ≠ []), loc⟩

namespace Token

/-- The items of the lines that follow line `n` of a file. -/
def streamFrom (file : Text) (n : Nat) : List Text → List Item
  | [] => []
  | line :: rest =>
    let loc := Location.ofLine file (n + 1) line
    match Definition.read line, (taggedRest? line).map (Text.splitOnce ':') with
    | .definition d, _ => .ok (.definition d loc) :: streamFrom file (n + 1) rest
    | _, some (some (tag, first)) =>
      let more := rest.takeWhile isPlainComment
      .ok (.block (Block.ofComment tag first more loc)) ::
        streamFrom file (n + 1 + more.length) (rest.dropWhile isPlainComment)
    | _, some none => .error (.unterminatedTag loc) :: streamFrom file (n + 1) rest
    | _, none => .ok (.passthrough line loc) :: streamFrom file (n + 1) rest
termination_by lines => lines.length
decreasing_by
  all_goals simp only [List.length_cons]
  all_goals first | omega | exact Nat.lt_succ_of_le (List.dropWhile_suffix _).length_le

/-- The items of a text, in order. -/
def stream (file text : Text) : List Item := streamFrom file 0 (Text.lines text)

end Token

/-- What there is to report about an item when it comes from the stream. -/
def Item.notices : Item → List Notice
  | .ok (.passthrough line _) =>
    match Definition.read line with
    | .oversizedArity digits command => [.oversizedArity digits command]
    | _ => []
  | _ => []

end TexSymbols
