/-!
# Stacks that know their height

A list whose first element is the top, with its length beside it, so that the
height of a tall stack is at hand.
-/

namespace Calculator

/-- A stack, top first. -/
structure Stack (α : Type) where
  items : List α
  height : Nat
  height_eq : height = items.length

namespace Stack

variable {α : Type}

/-- The stack that holds nothing. -/
def empty : Stack α := ⟨[], 0, rfl⟩

/-- Puts an item on top. -/
def push (s : Stack α) (a : α) : Stack α :=
  ⟨a :: s.items, s.height + 1, by rw [s.height_eq, List.length_cons]⟩

/-- Replaces the two topmost items by one made from them, the lower item
given first. -/
def combine? (f : α → α → α) : Stack α → Option (Stack α)
  | ⟨upper :: lower :: rest, height, h⟩ =>
    some ⟨f lower upper :: rest, height - 1, by rw [h]; rfl⟩
  | _ => none

/-- Stacks with the same items are the same. -/
theorem ext {s t : Stack α} (h : s.items = t.items) : s = t := by
  obtain ⟨items, height, hs⟩ := s
  obtain ⟨items', height', ht⟩ := t
  subst h hs ht
  rfl

@[simp]
theorem items_empty : (empty : Stack α).items = [] := rfl

@[simp]
theorem items_push (s : Stack α) (a : α) : (s.push a).items = a :: s.items := rfl

theorem items_of_combine? {f : α → α → α} {s t : Stack α} (h : s.combine? f = some t) :
    ∃ upper lower rest, s.items = upper :: lower :: rest ∧ t.items = f lower upper :: rest := by
  obtain ⟨items, height, rfl⟩ := s
  match items with
  | upper :: lower :: rest =>
    simp only [combine?, Option.some.injEq] at h
    exact ⟨upper, lower, rest, rfl, by rw [← h]⟩
  | [] => simp [combine?] at h
  | [_] => simp [combine?] at h

/-- Two items are missing exactly when the stack is lower than two. -/
theorem combine?_eq_none_iff {f : α → α → α} {s : Stack α} :
    s.combine? f = none ↔ s.height < 2 := by
  obtain ⟨items, height, rfl⟩ := s
  match items with
  | [] => simp [combine?]
  | [_] => simp [combine?]
  | _ :: _ :: _ => simp [combine?]

end Stack

end Calculator
