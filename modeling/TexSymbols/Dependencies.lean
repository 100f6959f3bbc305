import TexSymbols.Files.Tree
import TexSymbols.Tex.Argument
import TexSymbols.Tex.Comment
import TexSymbols.Text.Blank

/-!
# Files that documents name

* `DocumentKind` — TeX or LyX.
* `quotedNames` — the file names that a line of a LyX document gives.
* `DocumentKind.namesIn` — the files that a document names directly.
-/

namespace TexSymbols

/-- The kind of a document, on which depends how it names other files. -/
inductive DocumentKind
  /-- Files are named by `\input` and `\include`, seen from the working directory. -/
  | tex
  /-- Files are named by `filename "..."`, seen from the directory of the document. -/
  | lyx
deriving DecidableEq

/-- The pattern for the documents of this kind in the working directory. -/
def DocumentKind.defaultPattern : DocumentKind → Text
  | tex => "*.tex"
  | lyx => "*.lyx"

/-- A quoted file name at the beginning of a text, and what follows it. -/
def quotedName? (t : Text) : Option (Text × Text) := (Text.removePrefix? "filename \"" t).bind (Text.splitOnce '"')

theorem length_quotedName {t : Text} {p : Text × Text} (h : quotedName? t = some p) : p.2.length < t.length := by
  obtain ⟨r, hr, hp⟩ := Option.bind_eq_some_iff.1 h
  have := Text.length_splitOnce_lt hp
  rw [Text.removePrefix?_eq_some] at hr
  subst hr
  simp only [List.length_append]
  omega

/-- The quoted file names of a line, one behind the other. -/
def quotedNames (t : Text) : List Text :=
  match t with
  | [] => []
  | c :: r =>
    match _h : quotedName? (c :: r) with
    | some (name, rest) => name :: quotedNames rest
    | none => quotedNames r
termination_by t.length
decreasing_by
  · exact length_quotedName _h
  · exact Nat.lt_succ_self _

namespace DocumentKind

/-- The files that a line of the document `path` names. -/
def namesInLine (kind : DocumentKind) (path : Path) (line : Text) : List Path :=
  match kind with
  | tex => (arguments ["input", "include"] (stripComment line)).map fun a => Path.withTexExtension (Text.trim a)
  | lyx => (quotedNames line).map path.parent.join

/-- The files that the document `path` with the given content names, each once. -/
def namesIn (kind : DocumentKind) (path : Path) (content : Bytes) : List Path :=
  Text.distinct ((Text.lines (Utf8.decodeLossy content)).flatMap (kind.namesInLine path))

end DocumentKind

end TexSymbols
