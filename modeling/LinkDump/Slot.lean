import LinkDump.Text.Utf8

/-! # The lookahead slot
Room for one line that was read too early and is to be read again. An empty line is a line. -/

namespace LinkDump

/-- A slot that holds at most one line. -/
structure Slot where
  held : Option Text := none
  deriving Repr, DecidableEq

namespace Slot

/-- The slot that holds nothing. -/
def empty : Slot := {}

/-- Whether the slot holds nothing. -/
def isEmpty (slot : Slot) : Bool := slot.held.isNone

/-- Put a line into the slot, if that is empty. -/
def put (line : Text) (slot : Slot) : Option Slot :=
  match slot.held with
  | none => some ⟨some line⟩
  | some _ => none

/-- Take the line that is held, if any, and leave the slot empty. -/
def take (slot : Slot) : Option Text × Slot := (slot.held, empty)

/-- The number of lines that are held. -/
def count (slot : Slot) : Nat := if slot.isEmpty then 0 else 1

@[simp] theorem held_empty : empty.held = none := rfl

@[simp] theorem isEmpty_empty : empty.isEmpty = true := rfl

@[simp] theorem count_empty : empty.count = 0 := rfl

/-- A slot that holds a line counts for one, even if the line is empty. -/
@[simp] theorem count_of_some (line : Text) : (Slot.mk (some line)).count = 1 := rfl

@[simp] theorem put_empty (line : Text) : empty.put line = some ⟨some line⟩ := rfl

/-- A slot refuses a line exactly if it holds one already. -/
theorem put_eq_none_iff {line : Text} {slot : Slot} :
    slot.put line = none ↔ slot.isEmpty = false := by
  cases slot with
  | mk held => cases held <;> simp [put, isEmpty]

/-- There is only one slot that holds nothing. -/
theorem isEmpty_iff {slot : Slot} : slot.isEmpty = true ↔ slot = empty := by
  cases slot with
  | mk held => cases held <;> simp [isEmpty, empty]

end Slot

end LinkDump
