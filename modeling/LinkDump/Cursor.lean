import LinkDump.Error
import LinkDump.Slot
import LinkDump.Source

/-! # Cursors
A cursor reads a source line by line. It counts the physical lines it has pulled, decodes each of
them on its own, and keeps one line that was handed back. A line that is read again was counted when
it was pulled. Every operation gives the cursor after it, also when it fails. -/

namespace LinkDump

/-- A place in a source, between two lines. -/
structure Cursor where
  source : Source
  slot : Slot := .empty
  line : Nat := 0
  deriving Repr, DecidableEq

namespace Cursor

/-- What an operation on a cursor gives: a value or an error, and the cursor after it. -/
abbrev Answer (α : Type) := EStateM.Result LineError Cursor α

/-- The work that is left: the unread bytes, and one more for a line that waits in the slot. -/
def pending (cursor : Cursor) : Nat := cursor.source.bytes.length + cursor.slot.count

/-- The next line with its line break, or nothing at the end. -/
def nextRawLine (cursor : Cursor) : Answer (Option Text) :=
  match cursor.slot.take with
  | (some line, slot) => .ok (some line) { cursor with slot }
  | (none, _) =>
    match cursor.source.readLine with
    | .error reason source => .error (.input reason) { cursor with source }
    | .ok [] source => .ok none { cursor with source }
    | .ok (b :: bytes) source =>
      .ok (some (Utf8.decode (b :: bytes))) { cursor with source, line := cursor.line + 1 }

/-- The next line without its line break, or nothing at the end. -/
def nextLine (cursor : Cursor) : Answer (Option Text) :=
  match cursor.nextRawLine with
  | .ok line cursor => .ok (line.map dropLineBreak) cursor
  | .error e cursor => .error e cursor

/-- Hand a line back, to be the next one read. A cursor holds one such line; a second one is refused
and changes nothing. -/
def pushBack (line : Text) (cursor : Cursor) : Answer Unit :=
  match cursor.slot.put line with
  | some slot => .ok () { cursor with slot }
  | none => .error .slotOccupied cursor

/-- Read the rest of a line of which `seen` has been consumed already, and hand the line back. -/
def restoreLine (seen : Bytes) (cursor : Cursor) : Answer Unit :=
  match cursor.source.readLine with
  | .error reason source => .error (.input reason) { cursor with source }
  | .ok rest source =>
    { cursor with source, line := cursor.line + 1 }.pushBack (Utf8.decode (seen ++ rest))

/-- Consume a byte order mark if the source starts with one, however its bytes arrive. Bytes that
only begin like a mark are joined with the rest of their line, which waits in the slot and is
counted. With a line in the slot already, nothing is looked at. -/
def consumeMark (cursor : Cursor) : Answer Bool :=
  if cursor.slot.isEmpty then
    match cursor.source.matchMark 0 with
    | .error reason source => .error (.input reason) { cursor with source }
    | .ok matched source =>
      if matched = byteOrderMark.length then .ok true { cursor with source }
      else if matched = 0 then .ok false { cursor with source }
      else match { cursor with source }.restoreLine (byteOrderMark.take matched) with
        | .ok () cursor => .ok false cursor
        | .error e cursor => .error e cursor
  else .ok false cursor

/-- The byte that the next line starts with, or nothing at the end or for an empty line in the slot.
-/
def peekByte (cursor : Cursor) : Answer (Option UInt8) :=
  match cursor.slot.held with
  | some line => .ok (Utf8.encode line).head? cursor
  | none =>
    match cursor.source.look with
    | .error reason source => .error (.input reason) { cursor with source }
    | .ok bytes source => .ok bytes.head? { cursor with source }

/-! ## What is left to do -/

/-- Each line read leaves less to do. -/
theorem pending_lt_of_nextRawLine {cursor cursor' : Cursor} {line : Text}
    (h : cursor.nextRawLine = .ok (some line) cursor') : cursor'.pending < cursor.pending := by
  obtain ⟨source, ⟨held⟩, n⟩ := cursor
  cases held with
  | some text =>
    simp only [nextRawLine, Slot.take, EStateM.Result.ok.injEq] at h
    obtain ⟨-, rfl⟩ := h
    simp [pending]
  | none =>
    simp only [nextRawLine, Slot.take] at h
    split at h
    · cases h
    · cases h
    next b bytes source' hread =>
      cases h
      have := Source.bytes_of_readLine_eq_ok hread
      simp only [pending, Slot.count, Slot.isEmpty, Option.isNone_none, this, List.length_append,
        List.length_cons, if_true]
      omega

/-- A read never leaves more to do. -/
theorem pending_le_of_nextRawLine {cursor cursor' : Cursor} {line : Option Text}
    (h : cursor.nextRawLine = .ok line cursor') : cursor'.pending ≤ cursor.pending := by
  cases line with
  | some line => exact Nat.le_of_lt (pending_lt_of_nextRawLine h)
  | none =>
    obtain ⟨source, ⟨held⟩, n⟩ := cursor
    cases held with
    | some text => cases h
    | none =>
      simp only [nextRawLine, Slot.take] at h
      split at h
      · cases h
      next source' hread =>
        cases h
        have := Source.bytes_of_readLine_eq_ok hread
        simp [pending, this]
      · cases h

/-- A line that is handed back is one more thing to do. -/
theorem pending_of_pushBack {cursor cursor' : Cursor} {line : Text}
    (h : cursor.pushBack line = .ok () cursor') : cursor'.pending = cursor.pending + 1 := by
  obtain ⟨source, ⟨held⟩, n⟩ := cursor
  cases held with
  | some text => cases h
  | none => cases h; simp [pending, Slot.count, Slot.isEmpty]

/-- A line that is handed back with bytes in front of it is at most one more thing to do. -/
theorem pending_le_of_restoreLine {seen : Bytes} {cursor cursor' : Cursor}
    (h : cursor.restoreLine seen = .ok () cursor') : cursor'.pending ≤ cursor.pending + 1 := by
  rw [restoreLine] at h
  split at h
  · cases h
  next rest source hread =>
    have hpush := pending_of_pushBack h
    have hlen := congrArg List.length (Source.bytes_of_readLine_eq_ok hread)
    simp only [List.length_append] at hlen
    simp only [pending] at *
    omega

/-- Looking for a mark never leaves more to do: bytes that wait in the slot have been consumed. -/
theorem pending_le_of_consumeMark {cursor cursor' : Cursor} {found : Bool}
    (h : cursor.consumeMark = .ok found cursor') : cursor'.pending ≤ cursor.pending := by
  rw [consumeMark] at h
  split at h
  · split at h
    · cases h
    next matched source hmark =>
      obtain ⟨-, hle, hbytes⟩ := Source.bytes_of_matchMark_eq_ok (Nat.zero_le _) hmark
      have hlen := congrArg List.length hbytes
      simp only [List.take_zero, List.nil_append, List.length_append, List.length_take] at hlen
      split at h
      · cases h; simp only [pending]; omega
      next hne =>
        split at h
        · cases h; simp only [pending]; omega
        next hpos =>
          split at h
          next hrestore =>
            cases h
            have := pending_le_of_restoreLine hrestore
            simp only [pending] at *
            omega
          · cases h
  · cases h; exact Nat.le_refl _

/-- A peek leaves everything to do. -/
theorem pending_of_peekByte {cursor cursor' : Cursor} {first : Option UInt8}
    (h : cursor.peekByte = .ok first cursor') : cursor'.pending = cursor.pending := by
  rw [peekByte] at h
  split at h
  · cases h; rfl
  · split at h
    · cases h
    next hlook => cases h; simp [pending, Source.bytes_of_look_eq_ok hlook]

end Cursor

end LinkDump
