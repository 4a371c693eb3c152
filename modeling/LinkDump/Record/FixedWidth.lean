import LinkDump.Error
import LinkDump.Link
import LinkDump.Text.Line

/-! # Links of fixed width
A line starts a record if a bar stands after exactly `width` bytes; a line that does not continues
the target of the record before it. Widths count bytes, so a bar is looked for at a byte offset of a
text of characters. Only the last line break of a target is dropped. -/

namespace LinkDump

/-- The parts of a text before and after the bar at byte offset `offset`, if one stands there. -/
def splitBarAt : Nat → Text → Option (Text × Text)
  | _, [] => none
  | 0, c :: text => if c = '|' then some ([], text) else none
  | offset + 1, c :: text =>
    if c.utf8Size ≤ offset + 1 then
      (splitBarAt (offset + 1 - c.utf8Size) text).map fun (before, after) => (c :: before, after)
    else none

/-- Whether a line has a bar after exactly `width` bytes. -/
def isRecordStart (width : Nat) (raw : Text) : Bool := (splitBarAt width raw).isSome

/-- Cutting at a bar gives a text of the right size before it, and loses nothing but the bar. -/
theorem eq_of_splitBarAt {offset : Nat} {text before after : Text}
    (h : splitBarAt offset text = some (before, after)) :
    text = before ++ '|' :: after ∧ Utf8.size before = offset := by
  induction text generalizing offset before with
  | nil => cases offset <;> cases h
  | cons c text ih =>
    cases offset with
    | zero =>
      rw [splitBarAt] at h
      split at h
      · cases h
        simp_all
      · cases h
    | succ offset =>
      rw [splitBarAt] at h
      split at h
      next hle =>
        obtain ⟨⟨before', after'⟩, hsplit, heq⟩ := Option.map_eq_some_iff.mp h
        cases heq
        obtain ⟨rfl, hsize⟩ := ih hsplit
        simp only [List.cons_append, Utf8.size_cons, hsize, true_and]
        omega
      · cases h

/-- A bar after a text is found at the size of that text. -/
@[simp] theorem splitBarAt_size (before after : Text) :
    splitBarAt (Utf8.size before) (before ++ '|' :: after) = some (before, after) := by
  induction before with
  | nil => simp [splitBarAt]
  | cons c before ih =>
    have hpos := c.utf8Size_pos
    obtain ⟨n, hn⟩ : ∃ n, Utf8.size (c :: before) = n + 1 :=
      ⟨Utf8.size (c :: before) - 1, by rw [Utf8.size_cons]; omega⟩
    have hle : c.utf8Size ≤ n + 1 := by rw [← hn, Utf8.size_cons]; omega
    have hsub : n + 1 - c.utf8Size = Utf8.size before := by rw [← hn, Utf8.size_cons]; omega
    rw [hn, List.cons_append, splitBarAt, if_pos hle, hsub, ih, Option.map_some]

/-- A record that is put together from one line or more. -/
structure FixedRecord where
  width : Nat
  source : Text
  target : Text
  deriving Repr, DecidableEq

namespace FixedRecord

/-- Begin a record with its first line, which must have its bar in the right place. -/
def start (width : Nat) (raw : Text) : Except LineError FixedRecord :=
  match splitBarAt width raw with
  | some (source, target) => .ok { width, source, target }
  | none =>
    let line := dropLineBreak raw
    if '|' ∈ raw then .error (.barNotAtWidth width line) else .error (.missingBar line)

/-- Offer the next line to a record. The line that starts another record is handed back; any other
is part of the target as it stands. -/
def absorb (record : FixedRecord) (raw : Text) : Option Text × FixedRecord :=
  if isRecordStart record.width raw then (some raw, record)
  else (none, { record with target := record.target ++ raw })

/-- The link of a record that is complete. -/
def finish (record : FixedRecord) : Link :=
  { source := record.source, target := dropLineBreak record.target }

end FixedRecord

end LinkDump
