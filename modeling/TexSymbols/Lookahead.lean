import TexSymbols.Text

/-!
# Lookahead

A cursor over a stream that can look at items before they are consumed.  Items that were looked at wait in a
buffer and are handed out before anything new is pulled from the stream.

* `Lookahead.next`, `Lookahead.peek`, `Lookahead.nextIf` — the operations.
* `Lookahead.toList` — the view: the items that are not consumed yet.  `toList_peek`, `peek_eq`, `next_eq` and
  `nextIf_eq` say what each operation does to it.
-/

namespace TexSymbols

/-- Items pulled ahead, and what the stream still holds. -/
structure Lookahead (α : Type) where
  buffer : List α
  source : List α

namespace Lookahead

variable {α : Type}

/-- A cursor at the beginning of a stream. -/
def ofList (items : List α) : Lookahead α := ⟨[], items⟩

/-- The items that are not consumed yet. -/
def toList (s : Lookahead α) : List α := s.buffer ++ s.source

/-- Pull items until the buffer holds more than `n` of them or the stream ends. -/
def fill (s : Lookahead α) (n : Nat) : Lookahead α :=
  let k := n + 1 - s.buffer.length
  ⟨s.buffer ++ s.source.take k, s.source.drop k⟩

/-- The item `n` places ahead; `0` is the one that comes next. -/
def peek (s : Lookahead α) (n : Nat) : Option α × Lookahead α :=
  let s := s.fill n
  (s.buffer[n]?, s)

/-- Consume the next item. -/
def next (s : Lookahead α) : Option α × Lookahead α :=
  match s.buffer, s.source with
  | x :: b, r => (some x, ⟨b, r⟩)
  | [], x :: r => (some x, ⟨[], r⟩)
  | [], [] => (none, s)

/-- Consume the next item if `p` accepts it. -/
def nextIf (p : α → Bool) (s : Lookahead α) : Option α × Lookahead α :=
  match s.peek 0 with
  | (some x, s) => if p x then s.next else (none, s)
  | (none, s) => (none, s)

@[simp] theorem toList_ofList (items : List α) : (ofList items).toList = items := rfl

@[simp] theorem toList_fill (s : Lookahead α) (n : Nat) : (s.fill n).toList = s.toList := by
  simp [fill, toList, List.append_assoc]

/-- Looking ahead consumes nothing. -/
@[simp] theorem toList_peek (s : Lookahead α) (n : Nat) : (s.peek n).2.toList = s.toList :=
  toList_fill s n

/-- Looking ahead shows the item of the list at that place. -/
theorem peek_eq (s : Lookahead α) (n : Nat) : (s.peek n).1 = s.toList[n]? := by
  have hb : s.toList.take (max (n + 1) s.buffer.length) = (s.fill n).buffer := by
    have h₁ := List.take_of_length_le (Nat.le_max_right (n + 1) s.buffer.length)
    have h₂ : max (n + 1) s.buffer.length - s.buffer.length = n + 1 - s.buffer.length := by omega
    simp only [fill, toList, List.take_append, h₁, h₂]
  have hn : n < max (n + 1) s.buffer.length := Nat.lt_of_lt_of_le (Nat.lt_succ_self n) (Nat.le_max_left ..)
  rw [peek, ← hb, List.getElem?_take_of_lt hn]

theorem next_eq (s : Lookahead α) : s.next.1 = s.toList.head? ∧ s.next.2.toList = s.toList.tail := by
  obtain ⟨b, r⟩ := s
  cases b <;> cases r <;> simp [next, toList]

theorem nextIf_eq (p : α → Bool) (s : Lookahead α) :
    (s.nextIf p).1 = s.toList.head?.filter p ∧
      (s.nextIf p).2.toList = if (s.toList.head?.filter p).isSome then s.toList.tail else s.toList := by
  have h₁ := s.peek_eq 0
  have h₂ := s.toList_peek 0
  unfold nextIf
  split
  · rename_i x t he
    rw [he] at h₁ h₂
    rw [← List.head?_eq_getElem?] at h₁
    have h₃ := t.next_eq
    rw [h₂] at h₃
    by_cases hp : p x
    · simp [← h₁, hp, h₃, Option.filter]
    · simp [← h₁, hp, h₂, Option.filter]
  · rename_i t he
    rw [he] at h₁ h₂
    rw [← List.head?_eq_getElem?] at h₁
    simp only at h₁ h₂
    simp [← h₁, h₂]

/-- Consuming an item shortens what is left. -/
theorem length_nextIf_lt (s : Lookahead α) (p : α → Bool) (h : (s.nextIf p).1.isSome) :
    (s.nextIf p).2.toList.length < s.toList.length := by
  obtain ⟨h₁, h₂⟩ := s.nextIf_eq p
  rw [h₁] at h
  rw [h₂, if_pos h]
  cases hs : s.toList with
  | nil => simp [hs] at h
  | cons x xs => simp

theorem length_next_lt (s : Lookahead α) (h : s.next.1.isSome) : s.next.2.toList.length < s.toList.length := by
  obtain ⟨h₁, h₂⟩ := s.next_eq
  rw [h₁] at h
  rw [h₂]
  cases hs : s.toList with
  | nil => simp [hs] at h
  | cons x xs => simp

end Lookahead

end TexSymbols
