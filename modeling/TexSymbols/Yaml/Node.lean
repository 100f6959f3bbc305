import TexSymbols.Yaml.Event

/-!
# Nodes

* `Yaml.Node` — scalars, sequences, mappings and aliases.
* `Node.first?` — the node that begins with the first of some events.
* `Node.items?`, `Node.pairs?` — the content of a collection; an empty plain scalar stands for an empty one.
-/

namespace TexSymbols.Yaml

/-- A node of a document. -/
inductive Node
  | scalar (tag : Option Text) (form : Form) (text : Text)
  | sequence (items : List Node)
  | mapping (pairs : List (Node × Node))
  /-- The node that has the anchor. -/
  | aliasOf (anchor : Nat)

/-- A collection that has begun: its content, the last part first. -/
inductive OpenNode
  | sequence (items : List Node)
  | mapping (pairs : List (Node × Node)) (key : Option Node)

/-- The collection with one more node. -/
def OpenNode.add (n : Node) : OpenNode → OpenNode
  | sequence items => sequence (n :: items)
  | mapping pairs none => mapping pairs (some n)
  | mapping pairs (some key) => mapping ((key, n) :: pairs) none

namespace Node

/-- The node that is complete with these events; `stack` has the collections that have begun, the innermost first. -/
def build? (stack : List OpenNode) : List (Event Nat) → Option Node
  | [] => none
  | e :: es =>
    let complete (n : Node) (stack : List OpenNode) : Option Node :=
      match stack with
      | [] => some n
      | o :: os => build? (o.add n :: os) es
    match e, stack with
    | .aliasOf a, stack => complete (aliasOf a) stack
    | .scalar _ tag form text, stack => complete (scalar tag form text) stack
    | .sequenceStart _, stack => build? (.sequence [] :: stack) es
    | .mappingStart _, stack => build? (.mapping [] none :: stack) es
    | .sequenceEnd, .sequence items :: stack => complete (sequence items.reverse) stack
    | .mappingEnd, .mapping pairs none :: stack => complete (mapping pairs.reverse) stack
    | _, _ => none

/-- The node that begins with the first event. -/
def first? (es : List (Event Nat)) : Option Node := build? [] es

/-- A node that is not written. -/
def absent : Node := scalar none .plain []

/-- The text of a scalar. -/
def text? : Node → Option Text
  | scalar _ _ t => some t
  | _ => none

/-- The items of a sequence. -/
def items? : Node → Option (List Node)
  | sequence items => some items
  | scalar _ .plain [] => some []
  | _ => none

/-- The pairs of a mapping. -/
def pairs? : Node → Option (List (Node × Node))
  | mapping pairs => some pairs
  | scalar _ .plain [] => some []
  | _ => none

end Node

end TexSymbols.Yaml
