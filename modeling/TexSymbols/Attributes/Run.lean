import TexSymbols.Attributes
import TexSymbols.Lookahead
import TexSymbols.Token.Stream

/-!
# Runs of attributes

The tagged blocks directly after a definition or a section give the attributes of that definition or section.

* `Gathered` — the attributes of such a run, the warnings about it, and the stream behind it.
* `gather` — reads the run at the beginning of the stream, up to a tag in the stop list.
-/

namespace TexSymbols

/-- A run of tagged blocks that has been read. -/
structure Gathered where
  attributes : Attributes
  warnings : List Warning
  rest : Lookahead Item

/-- Whether the item is a tagged block that goes on with a run. -/
def continuesRun (stop : List Text) : Item → Bool
  | .ok (.block b) => b.tag ∉ stop
  | _ => false

/-- The warnings about a block, given the attributes of the run before it. -/
def Block.warnings (known : List Text) (before : Attributes) (b : Block) : List Warning :=
  (if b.tag ∈ known then [] else [.unknownTag b.tag b.loc]) ++
    (if before.contains b.tag then [.tagOverwritten b.tag b.loc] else [])

/-- `gather` with some attributes of the run already read. -/
def gatherFrom (stop known : List Text) (attributes : Attributes) (items : Lookahead Item) : Gathered :=
  match _h : items.nextIf (continuesRun stop) with
  | (some (.ok (.block b)), rest) =>
    let g := gatherFrom stop known (attributes.insert b.tag b.value) rest
    { g with warnings := b.warnings known attributes ++ g.warnings }
  | (_, rest) => ⟨attributes, [], rest⟩
termination_by items.toList.length
decreasing_by
  have := items.length_nextIf_lt (continuesRun stop) (by rw [_h]; rfl)
  rwa [_h] at this

/-- Reads the tagged blocks at the beginning of the stream whose tags are not in `stop`.  A tag that is given
again keeps its place and takes the last value. -/
def gather (stop known : List Text) (items : Lookahead Item) : Gathered :=
  gatherFrom stop known .empty items

end TexSymbols
