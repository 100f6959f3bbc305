import TexSymbols.Yaml.Event

/-!
# From tokens to events

Tokens are read with a stack of what is expected.  A token either is expected by the top of the stack, or the top can be
left out: a node that is not written is an empty plain scalar.

* `Yaml.Expected` — what can be expected.
* `Yaml.feed?` — the events of one token, and the new stack.
* `Event.ofTokens?` — the events of the single document in a list of tokens, none for an empty one.
-/

namespace TexSymbols.Yaml

/-- The anchor and the tag of a node. -/
structure Properties where
  anchor : Option Text := none
  tag : Option Text := none
deriving DecidableEq

/-- What is expected. -/
inductive Expected
  /-- A node, in block style or not.  `dashes` says whether the entries of a sequence may follow without a beginning of
  the sequence; a node that is not `required` may be left out. -/
  | node (block dashes required : Bool) (properties : Properties)
  /-- An entry of a sequence in block style, or its end. -/
  | entry
  /-- An entry of a sequence whose end is not marked. -/
  | openEntry
  /-- A key of a mapping in block style, or its end. -/
  | key
  /-- A colon and a value, in block style or not. -/
  | value (block : Bool)
  /-- A value that is not written. -/
  | noValue
  /-- An item in brackets, or their end. -/
  | item
  /-- What follows an item. -/
  | itemEnd
  /-- The key of a single pair in brackets. -/
  | pairKey
  /-- The end of a single pair in brackets. -/
  | pairEnd
  /-- A pair in braces, or their end. -/
  | pair
  /-- What follows a pair in braces. -/
  | bracePairEnd
  /-- The end of the document and of the text. -/
  | documentEnd
deriving DecidableEq

/-- A node that is not written. -/
def absent (p : Properties) : Event Text := .scalar p.anchor p.tag .plain []

/-- What tag handles stand for. -/
abbrev Handles := List (Text × Text)

/-- The tag with its handle spelled out. -/
def TagText.resolve? (handles : Handles) (t : TagText) : Option Text :=
  if t.handle.isEmpty then some t.suffix else (handles.lookup t.handle).map (· ++ t.suffix)

/-- The events with which a token begins a node with the given properties, and what is expected then. -/
def beginNode? (handles : Handles) (block dashes : Bool) (p : Properties) :
    Token → Option (List (Event Text) × List Expected)
  | .scalar form text => some ([.scalar p.anchor p.tag form text], [])
  | .flowSequenceStart => some ([.sequenceStart p.anchor], [.item])
  | .flowMappingStart => some ([.mappingStart p.anchor], [.pair])
  | .blockSequenceStart => if block then some ([.sequenceStart p.anchor], [.entry]) else none
  | .blockMappingStart => if block then some ([.mappingStart p.anchor], [.key]) else none
  | .entry => if dashes then some ([.sequenceStart p.anchor], [.node true false false {}, .openEntry]) else none
  | .aliasOf name => if p = {} then some ([.aliasOf name], []) else none
  | .anchor name => if p.anchor = none then some ([], [.node block dashes true { p with anchor := name }]) else none
  | .tag t =>
    if p.tag = none then (t.resolve? handles).map fun tag => ([], [.node block dashes true { p with tag }]) else none
  | _ => none

/-- The events of a token, and what is expected behind it. -/
def feed? (handles : Handles) : List Expected → Token → Option (List (Event Text) × List Expected)
  | [], _ => none
  | .node block dashes required p :: stack, t =>
    match beginNode? handles block dashes p t with
    | some (events, first) => some (events, first ++ stack)
    | none => if required && p = {} then none else (feed? handles stack t).map fun r => (absent p :: r.1, r.2)
  | .entry :: stack, t =>
    match t with
    | .entry => some ([], .node true false false {} :: .entry :: stack)
    | .blockEnd => some ([.sequenceEnd], stack)
    | _ => none
  | .openEntry :: stack, t =>
    match t with
    | .entry => some ([], .node true false false {} :: .openEntry :: stack)
    | t => (feed? handles stack t).map fun r => (.sequenceEnd :: r.1, r.2)
  | .key :: stack, t =>
    match t with
    | .key => some ([], .node true true false {} :: .value true :: .key :: stack)
    | .blockEnd => some ([.mappingEnd], stack)
    | _ => none
  | .value block :: stack, t =>
    match t with
    | .value => some ([], .node block block false {} :: stack)
    | t => (feed? handles stack t).map fun r => (absent {} :: r.1, r.2)
  | .noValue :: stack, t => (feed? handles stack t).map fun r => (absent {} :: r.1, r.2)
  | .item :: stack, t =>
    match t with
    | .flowSequenceEnd => some ([.sequenceEnd], stack)
    | .key => some ([.mappingStart none], .pairKey :: .value false :: .pairEnd :: .itemEnd :: stack)
    | t => (beginNode? handles false false {} t).map fun r => (r.1, r.2 ++ .itemEnd :: stack)
  | .itemEnd :: stack, t =>
    match t with
    | .comma => some ([], .item :: stack)
    | .flowSequenceEnd => some ([.sequenceEnd], stack)
    | _ => none
  | .pairKey :: stack, t =>
    if t ∈ [.value, .comma, .flowSequenceEnd] then some ([absent {}], stack)
    else (beginNode? handles false false {} t).map fun r => (r.1, r.2 ++ stack)
  | .pairEnd :: stack, t => (feed? handles stack t).map fun r => (.mappingEnd :: r.1, r.2)
  | .pair :: stack, t =>
    match t with
    | .flowMappingEnd => some ([.mappingEnd], stack)
    | .key => some ([], .node false false false {} :: .value false :: .bracePairEnd :: stack)
    | t => (beginNode? handles false false {} t).map fun r => (r.1, r.2 ++ .noValue :: .bracePairEnd :: stack)
  | .bracePairEnd :: stack, t =>
    match t with
    | .comma => some ([], .pair :: stack)
    | .flowMappingEnd => some ([.mappingEnd], stack)
    | _ => none
  | .documentEnd :: stack, t =>
    match t with
    | .documentEnd => some ([], .documentEnd :: stack)
    | .streamEnd => some ([], stack)
    | _ => none

/-- The events of tokens, if nothing is expected behind them. -/
def feedAll? (handles : Handles) : List Expected → List Token → Option (List (Event Text))
  | [], [] => some []
  | _ :: _, [] => none
  | stack, t :: ts => do
    let (events, stack) ← feed? handles stack t
    return events ++ (← feedAll? handles stack ts)

/-- The handles that need no directive. -/
def commonHandles : Handles := [("!", "!"), ("!!", "tag:yaml.org,2002:")]

/-- The handles that the directives before a document give, each once; the version is given once, too. -/
def handlesOf? (versionGiven : Bool) (given : Handles) : List Directive → Option Handles
  | [] => some (given ++ commonHandles)
  | .version :: ds => if versionGiven then none else handlesOf? true given ds
  | .tag handle beginning :: ds =>
    if given.any (·.1 = handle) then none else handlesOf? versionGiven (given ++ [(handle, beginning)]) ds

/-- The directives at the beginning of tokens, and the tokens behind them. -/
def splitDirectives : List Token → List Directive × List Token
  | .directive d :: ts =>
    let (ds, rest) := splitDirectives ts
    (d :: ds, rest)
  | ts => ([], ts)

/-- The events of the single document in the tokens of a text.  Behind directives the document has to be opened by its
mark; behind the mark it can be empty. -/
def Event.ofTokens? (tokens : List Token) : Option (List (Event Text)) := do
  let (directives, tokens) := splitDirectives tokens
  let handles ← handlesOf? false [] directives
  match tokens with
  | .documentStart :: ts => feedAll? handles [.node true false false {}, .documentEnd] ts
  | ts =>
    if !directives.isEmpty then none
    else if ts = [.streamEnd] then some []
    else feedAll? handles [.node true false true {}, .documentEnd] ts

end TexSymbols.Yaml
