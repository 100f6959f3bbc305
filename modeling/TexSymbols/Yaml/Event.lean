import TexSymbols.OrderedMap
import TexSymbols.Yaml.Token

/-!
# Events

The events of a document are its scalars and aliases and the beginnings and ends of its collections, in order.

* `Yaml.Event` — an event; anchors are names at first, and then numbers.
* `Event.number?` — the events with numbers for anchors.  An anchor gets the number of names that came before it, itself
  not counted again, so several anchors can get one number when a name comes back.
-/

namespace TexSymbols.Yaml

/-- An event of a document whose anchors are of the type `α`. -/
inductive Event (α : Type)
  | aliasOf (anchor : α)
  | scalar (anchor : Option α) (tag : Option Text) (form : Form) (text : Text)
  | sequenceStart (anchor : Option α)
  | sequenceEnd
  | mappingStart (anchor : Option α)
  | mappingEnd
deriving DecidableEq

namespace Event

variable {α β : Type}

/-- The anchor of the node that begins with the event. -/
def anchor? : Event α → Option α
  | scalar anchor _ _ _ => anchor
  | sequenceStart anchor => anchor
  | mappingStart anchor => anchor
  | _ => none

/-- The event of a node with another anchor; `f` gives the new one of an alias. -/
def withAnchor? (f : α → Option β) (anchor : Option β) : Event α → Option (Event β)
  | aliasOf a => (f a).map aliasOf
  | scalar _ tag form text => some (scalar anchor tag form text)
  | sequenceStart _ => some (sequenceStart anchor)
  | sequenceEnd => some sequenceEnd
  | mappingStart _ => some (mappingStart anchor)
  | mappingEnd => some mappingEnd

/-- The events with numbers for anchors, if every alias stands behind an anchor of its name; `known` has the numbers of
the names so far. -/
def numberFrom? (known : OrderedMap Text Nat) : List (Event Text) → Option (List (Event Nat))
  | [] => some []
  | e :: es => do
    let event ← e.withAnchor? known.find? (e.anchor?.map fun _ => known.size)
    let rest ← numberFrom? ((e.anchor?.map (known.insert · known.size)).getD known) es
    return event :: rest

/-- The events with numbers for anchors. -/
def number? (es : List (Event Text)) : Option (List (Event Nat)) := numberFrom? .empty es

end Event

end TexSymbols.Yaml
