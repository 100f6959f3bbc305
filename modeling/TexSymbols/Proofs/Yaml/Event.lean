import TexSymbols.Yaml.Document

/-!
# From tokens to events and nodes

Each reader is described by what it does to a piece of its input, whatever follows the piece.

* `Feeds` — tokens that become events, and what is expected before and behind them.
* `Numbers` — events without anchors, which get no numbers.
* `Builds` — the events of a node; `Builds.sequence`, `Builds.mapping` — those of collections.
-/

namespace TexSymbols.Yaml

/-! ## Tokens -/

/-- Where the first stack is expected the tokens become the events, and the second stack is
expected behind them. -/
def Feeds (stack : List Expected) (ts : List Token) (es : List (Event Text))
    (stack' : List Expected) : Prop :=
  ∀ handles more, feedAll? handles stack (ts ++ more) =
    (feedAll? handles stack' more).map (es ++ ·)

variable {stack stack' stack'' : List Expected} {t : Token} {ts ts' : List Token}
  {es es' : List (Event Text)}

theorem Feeds.nil (stack : List Expected) : Feeds stack [] [] stack := by
  intro handles more
  simp

theorem Feeds.append (h : Feeds stack ts es stack') (h' : Feeds stack' ts' es' stack'') :
    Feeds stack (ts ++ ts') (es ++ es') stack'' := by
  intro handles more
  rw [List.append_assoc, h, h', Option.map_map]
  simp [Function.comp_def]

/-- One token. -/
theorem Feeds.cons (h : ∀ handles, feed? handles stack t = some (es, stack'))
    (h' : Feeds stack' ts es' stack'') : Feeds stack (t :: ts) (es ++ es') stack'' := by
  intro handles more
  have hstep : feedAll? handles stack (t :: (ts ++ more)) =
      (feedAll? handles stack' (ts ++ more)).map (es ++ ·) := by
    cases stack with
    | nil => cases h handles
    | cons e stack =>
      rw [feedAll?, h, Option.bind_eq_bind, Option.bind_some, Option.map_eq_bind]
      rfl
  rw [List.cons_append, hstep, h', Option.map_map]
  simp [Function.comp_def]

/-- A token that is no event. -/
theorem Feeds.silent (h : ∀ handles, feed? handles stack t = some ([], stack'))
    (h' : Feeds stack' ts es stack'') : Feeds stack (t :: ts) es stack'' := .cons h h'

/-- A token that is one event. -/
theorem Feeds.event {e : Event Text} (h : ∀ handles, feed? handles stack t = some ([e], stack'))
    (h' : Feeds stack' ts es stack'') : Feeds stack (t :: ts) (e :: es) stack'' := .cons h h'

/-- A piece for each member of a list, each of which expects what stood there before. -/
theorem Feeds.flatMap {α : Type} {xs : List α} {f : α → List Token} {g : α → List (Event Text)}
    (h : ∀ x ∈ xs, Feeds stack (f x) (g x) stack) :
    Feeds stack (xs.flatMap f) (xs.flatMap g) stack := by
  induction xs with
  | nil => exact .nil stack
  | cons x xs ih =>
    rw [List.forall_mem_cons] at h
    exact h.1.append (ih h.2)

/-! ## Anchors -/

/-- Events without anchors, as they are before and after anchors have got numbers. -/
def Numbers (es : List (Event Text)) (es' : List (Event Nat)) : Prop :=
  ∀ known more, Event.numberFrom? known (es ++ more) =
    (Event.numberFrom? known more).map (es' ++ ·)

variable {ns ns' : List (Event Nat)}

theorem Numbers.nil : Numbers [] [] := by
  intro known more
  simp

theorem Numbers.append (h : Numbers es ns) (h' : Numbers es' ns') :
    Numbers (es ++ es') (ns ++ ns') := by
  intro known more
  rw [List.append_assoc, h, h', Option.map_map]
  simp [Function.comp_def]

theorem Numbers.cons {e : Event Text} {n : Event Nat} (hanchor : e.anchor? = none)
    (hevent : ∀ f, e.withAnchor? f none = some n) (h : Numbers es ns) :
    Numbers (e :: es) (n :: ns) := by
  intro known more
  rw [List.cons_append, Event.numberFrom?, hanchor, Option.map_none, hevent]
  simp only [Option.bind_eq_bind, Option.bind_some, Option.map_none, Option.getD_none]
  rw [h]
  cases Event.numberFrom? known more <;> rfl

theorem Numbers.flatMap {α : Type} {xs : List α} {f : α → List (Event Text)}
    {g : α → List (Event Nat)} (h : ∀ x ∈ xs, Numbers (f x) (g x)) :
    Numbers (xs.flatMap f) (xs.flatMap g) := by
  induction xs with
  | nil => exact .nil
  | cons x xs ih =>
    rw [List.forall_mem_cons] at h
    exact h.1.append (ih h.2)

theorem Numbers.number? (h : Numbers es ns) : Event.number? es = some ns := by
  have hall := h .empty []
  rw [List.append_nil] at hall
  rw [Event.number?, hall]
  simp [Event.numberFrom?]

/-! ## Nodes -/

/-- The node that a complete node belongs to, or is. -/
def Node.completed? (n : Node) : List OpenNode → List (Event Nat) → Option Node
  | [], _ => some n
  | o :: os, es => Node.build? (o.add n :: os) es

/-- The events are those of the node. -/
def Builds (n : Node) (es : List (Event Nat)) : Prop :=
  ∀ stack more, Node.build? stack (es ++ more) = n.completed? stack more

theorem Builds.first? {n : Node} (h : Builds n ns) : Node.first? ns = some n := by
  have hall := h [] []
  rwa [List.append_nil] at hall

/-- The document whose root is the node. -/
theorem Builds.ofEvents? {n : Node} (h : Builds n ns) :
    Document.ofEvents? ns = some ⟨n, anchoredNodes .empty ns, ns.length⟩ := by
  have hfirst := h.first?
  cases ns with
  | nil => cases hfirst
  | cons e es =>
    rw [Document.ofEvents?, hfirst, Option.map_some]
    simp

theorem Builds.scalar (anchor : Option Nat) (tag : Option Text) (form : Form) (t : Text) :
    Builds (.scalar tag form t) [.scalar anchor tag form t] := by
  intro stack more
  cases stack <;> rfl

section Collections

variable {α : Type} {xs : List α} {f f' : α → Node} {g g' : α → List (Event Nat)}

theorem build?_items (h : ∀ x ∈ xs, Builds (f x) (g x)) (items : List Node)
    (stack : List OpenNode) (more : List (Event Nat)) :
    Node.build? (.sequence items :: stack) (xs.flatMap g ++ more) =
      Node.build? (.sequence ((xs.map f).reverse ++ items) :: stack) more := by
  induction xs generalizing items with
  | nil => rfl
  | cons x xs ih =>
    rw [List.forall_mem_cons] at h
    rw [List.flatMap_cons, List.append_assoc, h.1]
    exact (ih h.2 (f x :: items)).trans (by simp)

theorem Builds.sequence (h : ∀ x ∈ xs, Builds (f x) (g x)) (anchor : Option Nat) :
    Builds (.sequence (xs.map f)) (.sequenceStart anchor :: (xs.flatMap g ++ [.sequenceEnd])) := by
  intro stack more
  have hitems := build?_items h [] stack (.sequenceEnd :: more)
  have hstart : Node.build? stack (.sequenceStart anchor :: (xs.flatMap g ++ .sequenceEnd :: more)) =
      Node.build? (.sequence [] :: stack) (xs.flatMap g ++ .sequenceEnd :: more) := by
    cases stack <;> rfl
  rw [List.cons_append, List.append_assoc, List.singleton_append, hstart, hitems, List.append_nil]
  cases stack <;> simp [Node.build?, Node.completed?]

theorem build?_pairs (h : ∀ x ∈ xs, Builds (f x) (g x) ∧ Builds (f' x) (g' x))
    (pairs : List (Node × Node)) (stack : List OpenNode) (more : List (Event Nat)) :
    Node.build? (.mapping pairs none :: stack) (xs.flatMap (fun x => g x ++ g' x) ++ more) =
      Node.build? (.mapping ((xs.map fun x => (f x, f' x)).reverse ++ pairs) none :: stack)
        more := by
  induction xs generalizing pairs with
  | nil => rfl
  | cons x xs ih =>
    rw [List.forall_mem_cons] at h
    rw [List.flatMap_cons, List.append_assoc, List.append_assoc, h.1.1]
    have hvalue := h.1.2 (.mapping pairs (some (f x)) :: stack)
      (xs.flatMap (fun x => g x ++ g' x) ++ more)
    exact hvalue.trans ((ih h.2 ((f x, f' x) :: pairs)).trans (by simp))

theorem Builds.mapping (h : ∀ x ∈ xs, Builds (f x) (g x) ∧ Builds (f' x) (g' x))
    (anchor : Option Nat) :
    Builds (.mapping (xs.map fun x => (f x, f' x)))
      (.mappingStart anchor :: (xs.flatMap (fun x => g x ++ g' x) ++ [.mappingEnd])) := by
  intro stack more
  have hpairs := build?_pairs h [] stack (.mappingEnd :: more)
  have hstart : Node.build? stack
      (.mappingStart anchor :: (xs.flatMap (fun x => g x ++ g' x) ++ .mappingEnd :: more)) =
      Node.build? (.mapping [] none :: stack)
        (xs.flatMap (fun x => g x ++ g' x) ++ .mappingEnd :: more) := by
    cases stack <;> rfl
  rw [List.cons_append, List.append_assoc, List.singleton_append, hstart, hpairs, List.append_nil]
  cases stack <;> simp [Node.build?, Node.completed?]

end Collections

end TexSymbols.Yaml
