import TexSymbols.Proofs.Lookahead

/-!
# A cursor answers as a list

* `Lookahead.refill` — looking ahead as a loop that pulls one item after the other;
  `fill_eq_refill` — it is what `fill` does, also when the stream ends halfway.
* `Lookahead.Request` — what can be asked; `Request.onCursor`, `Request.onList` — the answer and
  what is left, of a cursor and of a list.
* `Request.onCursor_refines` — one request; `session_refines` — any requests one after the other.
* `Lookahead.ListRefinement`, `listRefinement` — the answers are those of the list, no item is lost
  or repeated, and nobody sees what was only looked at.
-/

namespace TexSymbols.Lookahead

variable {α σ : Type}

/-! ## Filling the buffer item by item -/

/-- Pull items into the buffer until it holds more than `n` of them or the stream ends. -/
def refill (n : Nat) (buffer : List α) : List α → Lookahead α
  | [] => ⟨buffer, []⟩
  | x :: source =>
    if n < buffer.length then ⟨buffer, x :: source⟩ else refill n (buffer ++ [x]) source

theorem fill_eq_refill (n : Nat) (buffer source : List α) :
    fill ⟨buffer, source⟩ n = refill n buffer source := by
  induction source generalizing buffer with
  | nil => simp [fill, refill]
  | cons x source ih =>
    rw [refill]
    split
    · rename_i hfull
      have hnone : n + 1 - buffer.length = 0 := by omega
      simp [fill, hnone]
    · rename_i hshort
      obtain ⟨k, hk⟩ : ∃ k, n + 1 - buffer.length = k + 1 := ⟨n - buffer.length, by omega⟩
      have hone : n + 1 - (buffer ++ [x]).length = k := by
        rw [List.length_append, List.length_singleton]
        omega
      rw [← ih, fill, fill, hone, hk]
      simp

/-! ## Requests -/

/-- What can be asked of a cursor. -/
inductive Request (α : Type)
  | next
  /-- The item `n` places ahead. -/
  | peek (n : Nat)
  | nextIf (p : α → Bool)

namespace Request

/-- The answer of a cursor, and the cursor behind it. -/
def onCursor : Request α → Lookahead α → Option α × Lookahead α
  | next, s => s.next
  | peek n, s => s.peek n
  | nextIf p, s => s.nextIf p

/-- The answer of a list, and what is left of it. -/
def onList : Request α → List α → Option α × List α
  | next, items => (items.head?, items.tail)
  | peek n, items => (items[n]?, items)
  | nextIf _, [] => (none, [])
  | nextIf p, x :: items => if p x then (some x, items) else (none, x :: items)

/-- Whether the answer is consumed. -/
def consumes : Request α → Bool
  | peek _ => false
  | _ => true

/-- **One request**: the answer is that of the list, and so is what is left. -/
theorem onCursor_refines (r : Request α) (s : Lookahead α) :
    (r.onCursor s).1 = (r.onList s.toList).1 ∧
      (r.onCursor s).2.toList = (r.onList s.toList).2 := by
  cases r with
  | next => exact s.next_eq
  | peek n => exact ⟨s.peek_eq n, s.toList_peek n⟩
  | nextIf p =>
    obtain ⟨hanswer, hrest⟩ := s.nextIf_eq p
    show (s.nextIf p).1 = _ ∧ (s.nextIf p).2.toList = _
    rw [hanswer, hrest]
    cases s.toList with
    | nil => exact ⟨rfl, rfl⟩
    | cons x items =>
      rw [onList, List.head?_cons, Option.filter_some]
      split <;> exact ⟨rfl, rfl⟩

/-- What a list gives away and what it keeps is the list. -/
theorem onList_append (r : Request α) (items : List α) :
    (if r.consumes then (r.onList items).1.toList else []) ++ (r.onList items).2 = items := by
  cases r with
  | next => cases items <;> rfl
  | peek n => rfl
  | nextIf p =>
    cases items with
    | nil => rfl
    | cons x items => by_cases hp : p x <;> simp [onList, consumes, hp]

/-- Looking changes nothing. -/
theorem onList_of_not_consumes {r : Request α} (h : r.consumes = false) (items : List α) :
    (r.onList items).2 = items := by
  cases r with
  | peek n => rfl
  | next => cases h
  | nextIf p => cases h

end Request

/-! ## Requests one after the other -/

/-- The answers to requests one after the other, and what is left. -/
def session (step : Request α → σ → Option α × σ) : List (Request α) → σ → List (Option α) × σ
  | [], s => ([], s)
  | r :: requests, s =>
    let rest := session step requests (step r s).2
    ((step r s).1 :: rest.1, rest.2)

/-- The answers that are consumed, of the answers to all requests. -/
def consumed : List (Request α) → List (Option α) → List (Option α)
  | r :: requests, answer :: answers =>
    if r.consumes then answer :: consumed requests answers else consumed requests answers
  | _, _ => []

/-- **Any requests one after the other**, also beyond the end of the stream. -/
theorem session_refines (requests : List (Request α)) (s : Lookahead α) :
    (session Request.onCursor requests s).1 = (session Request.onList requests s.toList).1 ∧
      (session Request.onCursor requests s).2.toList =
        (session Request.onList requests s.toList).2 := by
  induction requests generalizing s with
  | nil => exact ⟨rfl, rfl⟩
  | cons r requests ih =>
    obtain ⟨hanswer, hrest⟩ := r.onCursor_refines s
    obtain ⟨hanswers, hend⟩ := ih (r.onCursor s).2
    rw [hrest] at hanswers hend
    exact ⟨congrArg₂ List.cons hanswer hanswers, hend⟩

/-- Nothing is lost and nothing is repeated. -/
theorem consumed_append (requests : List (Request α)) (items : List α) :
    (consumed requests (session Request.onList requests items).1).filterMap id ++
      (session Request.onList requests items).2 = items := by
  induction requests generalizing items with
  | nil => rfl
  | cons r requests ih =>
    have hstep := r.onList_append items
    have hrest := ih (r.onList items).2
    rw [session, consumed]
    split
    · rename_i hconsumes
      rw [if_pos hconsumes] at hstep
      have hone : ∀ answer : Option α, [answer].filterMap id = answer.toList := by
        rintro (_ | x) <;> rfl
      rw [← List.singleton_append, List.filterMap_append, List.append_assoc, hrest, hone, hstep]
    · rename_i hlooks
      rw [if_neg hlooks, List.nil_append] at hstep
      rw [hrest, hstep]

/-- Requests that only look can be left out. -/
theorem session_filter (requests : List (Request α)) (items : List α) :
    session Request.onList (requests.filter Request.consumes) items =
      (consumed requests (session Request.onList requests items).1,
        (session Request.onList requests items).2) := by
  induction requests generalizing items with
  | nil => rfl
  | cons r requests ih =>
    rw [session, consumed]
    cases hr : r.consumes with
    | true => rw [List.filter_cons_of_pos hr, session, ih, if_pos rfl]
    | false =>
      rw [List.filter_cons_of_neg (by simp [hr]), ih, r.onList_of_not_consumes hr, if_neg (by simp)]

/-! ## All at once -/

/-- What is seen of a cursor. -/
structure ListRefinement (s : Lookahead α) (requests : List (Request α)) : Prop where
  /-- The answers, and what is left, are those of the list of what is not consumed yet. -/
  answers_eq : (session Request.onCursor requests s).1 =
    (session Request.onList requests s.toList).1
  rest_eq : (session Request.onCursor requests s).2.toList =
    (session Request.onList requests s.toList).2
  /-- What was consumed, and then what is left, are the items in their order. -/
  consumed_append : (consumed requests (session Request.onCursor requests s).1).filterMap id ++
    (session Request.onCursor requests s).2.toList = s.toList
  /-- Without the requests that only look, the other answers are the same, and so is what is
  left. -/
  answers_unseen : (session Request.onCursor (requests.filter Request.consumes) s).1 =
    consumed requests (session Request.onCursor requests s).1
  rest_unseen : (session Request.onCursor (requests.filter Request.consumes) s).2.toList =
    (session Request.onCursor requests s).2.toList
  /-- To look ahead, items are pulled one after the other until there are enough or no more. -/
  peek_eq : ∀ n, s.peek n =
    ((refill n s.buffer s.source).buffer[n]?, refill n s.buffer s.source)

/-- **A cursor answers as the list of its items**, to any requests in any order, whether it stands
at the beginning of a stream or items were pulled before. -/
theorem listRefinement (s : Lookahead α) (requests : List (Request α)) :
    ListRefinement s requests := by
  obtain ⟨hanswers, hrest⟩ := session_refines requests s
  obtain ⟨hanswers', hrest'⟩ := session_refines (requests.filter Request.consumes) s
  refine ⟨hanswers, hrest, ?_, ?_, ?_, ?_⟩
  · rw [hanswers, hrest]
    exact Lookahead.consumed_append requests s.toList
  · rw [hanswers', session_filter, hanswers]
  · rw [hrest', session_filter, hrest]
  · intro n
    rw [peek, ← fill_eq_refill]

/-- Looking beyond the end, then taking what there is. -/
example :
    (session Request.onCursor [.peek 5, .next, .peek 0, .nextIf (· = 3), .next, .next, .peek 0]
      (ofList [1, 2])).1 = [none, some 1, some 2, none, some 2, none, none] := by decide

end TexSymbols.Lookahead
