import Mathlib.Data.List.Basic

/-!
# A barrier with values

Members submit values and may leave. The barrier is complete when at least two members are
present and all of them have submitted; it is deserted when at most one is present. The first
value of a member counts.
-/

namespace Barrier

variable {Member Value : Type*} [DecidableEq Member]

/-- What arrives at the barrier. -/
inductive Input (Member Value : Type*) where
  /-- A member submits a value. -/
  | submit (i : Member) (value : Value)
  /-- A member leaves. -/
  | leave (i : Member)

/-- The value that an input submits for a member. -/
def Input.valueOf (i : Member) : Input Member Value → Option Value
  | .submit j value => if j = i then some value else none
  | .leave _ => none

/-- The first value of a member. -/
def first (i : Member) (l : List (Input Member Value)) : Option Value :=
  l.findSome? (Input.valueOf i)

/-- A member who was there at the start has not left. -/
def Present (start : Member → Prop) (l : List (Input Member Value)) (i : Member) : Prop :=
  start i ∧ Input.leave i ∉ l

/-- Two members or more are present, and all of them have submitted. -/
def Complete (start : Member → Prop) (l : List (Input Member Value)) : Prop :=
  (∃ i j, Present start l i ∧ Present start l j ∧ i ≠ j) ∧
    ∀ i, Present start l i → (first i l).isSome = true

omit [DecidableEq Member] in
/-- At most one member is present. -/
def Deserted (start : Member → Prop) (l : List (Input Member Value)) : Prop :=
  ∀ i j, Present start l i → Present start l j → i = j

variable {start : Member → Prop} {l : List (Input Member Value)} {i j : Member} {value : Value}

omit [DecidableEq Member] in
/-- A submission leaves everybody present. -/
@[simp] theorem present_submit : Present start (l ++ [.submit j value]) i ↔ Present start l i := by
  simp [Present]

omit [DecidableEq Member] in
/-- After somebody has left the others are present. -/
@[simp] theorem present_leave : Present start (l ++ [.leave j]) i ↔ Present start l i ∧ i ≠ j := by
  simp [Present, and_assoc]

/-- A later value does not count. -/
@[simp] theorem first_submit : first i (l ++ [.submit j value]) =
    (first i l).or (if j = i then some value else none) := by
  unfold first
  rw [List.findSome?_append]
  congr 1
  by_cases hij : j = i <;> simp [Input.valueOf, hij]

/-- Who leaves submits nothing. -/
@[simp] theorem first_leave : first i (l ++ [Input.leave j]) = first i l := by
  unfold first
  rw [List.findSome?_append]
  simp [Input.valueOf]

end Barrier
