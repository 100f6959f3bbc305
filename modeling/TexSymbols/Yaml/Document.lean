import TexSymbols.Yaml.Event.Grammar
import TexSymbols.Yaml.Node
import TexSymbols.Yaml.Token.Stream

/-!
# Documents

* `Yaml.Document` — the node of a document, and those of its nodes that have anchors.
* `Yaml.read?` — the document of a text that holds a single one.
* `Yaml.Following` — reading nodes through aliases; `Document.follow` goes from an alias to its node.  A document is
  refused if it makes its reader follow aliases more than a hundred times as often as it has events.
-/

namespace TexSymbols.Yaml

/-- A document. -/
structure Document where
  root : Node
  anchored : OrderedMap Nat Node
  /-- The number of events, an empty document having one. -/
  size : Nat

/-- The nodes with anchors; of several with the same number the last one. -/
def anchoredNodes (found : OrderedMap Nat Node) : List (Event Nat) → OrderedMap Nat Node
  | [] => found
  | e :: es =>
    match e.anchor?, Node.first? (e :: es) with
    | some anchor, some n => anchoredNodes (found.insert anchor n) es
    | _, _ => anchoredNodes found es

/-- The document with these events. -/
def Document.ofEvents? : List (Event Nat) → Option Document
  | [] => some ⟨.absent, .empty, 1⟩
  | es => (Node.first? es).map fun root => ⟨root, anchoredNodes .empty es, es.length⟩

/-- Reads a text that holds one document. -/
def read? (t : Text) : Option Document := do
  if !t.all isReadable then none
  else
    let tokens ← Token.ofText? (normaliseBreaks t)
    Document.ofEvents? (← Event.number? (← Event.ofTokens? tokens))

/-- Reading that may fail and counts how often it followed an alias. -/
abbrev Following (α : Type) := StateT Nat Option α

namespace Document

/-- How often aliases may be followed. -/
def aliasLimit (d : Document) : Nat := 100 * d.size

/-- The node itself, or the one that an alias stands for. -/
def follow (d : Document) : Node → Following Node
  | .aliasOf anchor => do
    let followed ← get
    if d.aliasLimit ≤ followed then failure
    else
      set (followed + 1)
      StateT.lift (d.anchored.find? anchor)
  | n => return n

end Document

end TexSymbols.Yaml
