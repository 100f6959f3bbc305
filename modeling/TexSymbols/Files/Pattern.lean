import TexSymbols.Files.Tree

/-!
# Patterns for file names

A pattern is a path in which `*` stands for any text, `?` for any character, `[..]` for one of some characters, `[!..]`
for any other one, and `**` between slashes for any number of directories.

* `NamePattern` — a pattern for one name; `NamePattern.matches`.
* `Pattern` — a pattern for a path; `Pattern.parse?`.
* `Pattern.find` — the paths in a tree that a pattern stands for.  Directories that may not be read count as empty.
-/

namespace TexSymbols

/-- A part of a pattern for a name. -/
inductive Wildcard
  | exactly (c : Char)
  | anyChar
  | anyText
  /-- A character in one of the ranges, or in none of them. -/
  | oneOf (negated : Bool) (ranges : List (Char × Char))
deriving DecidableEq

/-- A pattern for one name. -/
abbrev NamePattern := List Wildcard

namespace NamePattern

/-- The ranges in brackets: two characters with a hyphen between them, or one character. -/
def ranges : Text → List (Char × Char)
  | a :: '-' :: b :: r => (a, b) :: ranges r
  | a :: r => (a, a) :: ranges r
  | [] => []

/-- What stands in brackets, behind the opening one, and what follows them.  The first character belongs to the inside
even if it is a closing bracket. -/
def brackets? : Text → Option (Wildcard × Text)
  | '!' :: c :: r => (Text.splitOnce ']' r).map fun p => (.oneOf true (ranges (c :: p.1)), p.2)
  | ['!'] => none
  | c :: r => (Text.splitOnce ']' r).map fun p => (.oneOf false (ranges (c :: p.1)), p.2)
  | [] => none

theorem length_brackets {t : Text} {p : Wildcard × Text} (h : brackets? t = some p) : p.2.length < t.length := by
  unfold brackets? at h
  split at h
  · obtain ⟨q, hq, rfl⟩ := Option.map_eq_some_iff.1 h
    have := Text.length_splitOnce_lt hq
    simp only [List.length_cons]
    omega
  · simp at h
  · obtain ⟨q, hq, rfl⟩ := Option.map_eq_some_iff.1 h
    exact Nat.lt_succ_of_lt (Text.length_splitOnce_lt hq)
  · simp at h

/-- Reads a pattern for a name.  Two stars within a name and open brackets are refused. -/
def parse? (t : Text) : Option NamePattern :=
  match t with
  | [] => some []
  | '?' :: r => (parse? r).map (.anyChar :: ·)
  | '*' :: '*' :: _ => none
  | '*' :: r => (parse? r).map (.anyText :: ·)
  | '[' :: r =>
    match _h : brackets? r with
    | none => none
    | some (w, rest) => (parse? rest).map (w :: ·)
  | c :: r => (parse? r).map (.exactly c :: ·)
termination_by t.length
decreasing_by
  · exact Nat.lt_succ_self _
  · exact Nat.lt_succ_self _
  · exact Nat.lt_succ_of_lt (length_brackets _h)
  · exact Nat.lt_succ_self _

end NamePattern

/-- Whether a part of a pattern stands for the character. -/
def Wildcard.accepts (c : Char) : Wildcard → Bool
  | .exactly d => d = c
  | .anyChar => true
  | .anyText => true
  | .oneOf negated rs => (rs.any fun r => r.1.toNat ≤ c.toNat && c.toNat ≤ r.2.toNat) != negated

namespace NamePattern

/-- For each end of the name, the whole name first, whether the pattern stands for it. -/
def matchedEnds (name : Text) : NamePattern → List Bool
  | [] => name.map (fun _ => false) ++ [true]
  | .anyText :: ws => (matchedEnds name ws).foldr (fun b later => (b || later.head?.getD false) :: later) []
  | w :: ws => List.zipWith (fun c b => w.accepts c && b) name (matchedEnds name ws).tail ++ [false]

/-- Whether the pattern stands for the name. -/
def «matches» (ws : NamePattern) (name : Text) : Bool := (matchedEnds name ws).head?.getD false

/-- The only name that a pattern without wildcards stands for. -/
def literal? (ws : NamePattern) : Option Text :=
  ws.mapM fun w =>
    match w with
    | .exactly c => some c
    | _ => none

end NamePattern

/-- A step of a pattern for a path. -/
inductive PatternStep
  /-- Any number of directories. -/
  | anyDepth
  | name (ws : NamePattern)

/-- A pattern for a path. -/
structure Pattern where
  isAbsolute : Bool
  steps : List PatternStep
  /-- Whether only directories are meant. -/
  directoriesOnly : Bool

namespace Pattern

def step? (piece : Text) : Option PatternStep :=
  if piece = ['*', '*'] then some .anyDepth else (NamePattern.parse? piece).map .name

/-- Reads a pattern. -/
def parse? (t : Text) : Option Pattern :=
  let isAbsolute := Path.isAbsolute t
  let pieces := Path.pieces (if isAbsolute then t.drop 1 else t)
  let pieces := if pieces.length > 1 && pieces.getLast? = some [] then pieces.dropLast else pieces
  (pieces.mapM step?).map fun steps => ⟨isAbsolute, steps, t.getLast? = some '/'⟩

/-- Whether a path is the working directory itself. -/
def isHere (p : Path) : Bool := p.components = [.current]

/-- The path of something below `p`; paths do not begin with the working directory. -/
def descend (p : Path) (n : Text) : Path := if isHere p then n else Path.join p n

/-- The paths that are reached from `p` by the steps.  A name without wildcards is looked up; any other one is compared
with the names in the directory, and with `.` and `..` if it begins with a dot. -/
def walk (t : FileTree) : List PatternStep → Path → List Path
  | [], p => [p]
  | .name ws :: rest, p =>
    match ws.literal? with
    | some n =>
      let special := n = ['.'] || n = ['.', '.']
      if (if special then t.isDirectory p else t.exists (descend p n)) then walk t rest (descend p n) else []
    | none =>
      if t.isDirectory p then
        let specials : List Text := if ws.head? = some (.exactly '.') then [".", ".."] else []
        (((t.children? p).getD []).filter ws.matches).flatMap (fun n => walk t rest (descend p n)) ++
          (specials.filter ws.matches).flatMap fun n => walk t rest (Path.join p n)
      else []
  | .anyDepth :: .anyDepth :: rest, p => walk t (.anyDepth :: rest) p
  | .anyDepth :: rest, p =>
    let ways := ((t.place? p).map t.below).getD []
    let reached := ways.map fun way => (way, way.foldl descend p)
    match rest with
    | .name ws :: rest =>
      (reached.filter fun r => (r.1.getLast?.map ws.matches).getD false).flatMap fun r => walk t rest r.2
    | _ => (reached.map Prod.snd).filter t.isDirectory

/-- The paths that a pattern stands for. -/
def find (t : FileTree) (pattern : Pattern) : List Path :=
  let paths := walk t pattern.steps (if pattern.isAbsolute then "/" else ".")
  if pattern.directoriesOnly then paths.filter t.isDirectory else paths

end Pattern

end TexSymbols
