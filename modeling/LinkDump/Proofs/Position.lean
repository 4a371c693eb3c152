import LinkDump.Cursor
import LinkDump.Proofs.Ascii
import LinkDump.Proofs.Chunks

/-! # Positions of a cursor
Over chunks a cursor is known by two things: how many lines it has handed out, and which physical
lines are still to come. The first of these may wait in the slot, already counted and decoded, or
still be unread bytes; no operation tells the two apart. `Cursor.StandsAt` is that invariant, and
each operation of a cursor has one lemma that says what it does to it. `Cursor.Yields` says the same
from outside: the lines that reading on gives, one by one, to the end. -/

namespace LinkDump

/-- Counting on over a run of lines, one line first. -/
theorem add_length_cons {α : Type} (count : Nat) (line : α) (lines : List α) :
    count + (line :: lines).length = count + 1 + lines.length := by
  rw [List.length_cons, Nat.add_comm lines.length, ← Nat.add_assoc]

namespace Cursor

/-- Reading on gives these lines and then the end. -/
inductive Yields : Cursor → List Text → Prop
  | nothing {cursor cursor' : Cursor} (hread : cursor.nextRawLine = .ok none cursor') :
      Yields cursor []
  | line {cursor cursor' : Cursor} {line : Text} {lines : List Text}
      (hread : cursor.nextRawLine = .ok (some line) cursor') (hrest : Yields cursor' lines) :
      Yields cursor (line :: lines)

/-- The cursor has handed out `count` lines of a source of chunks, and `lines` are still to come. -/
inductive StandsAt : Cursor → Nat → List Bytes → Prop
  /-- All lines to come are unread. -/
  | unread {source : Source} {count : Nat} {lines : List Bytes} (hchunks : source.AllChunks)
      (hlines : physicalLines source.bytes = lines) :
      StandsAt ⟨source, .empty, count⟩ count lines
  /-- The first line to come waits in the slot; it was counted when it was read. -/
  | waiting {source : Source} {count : Nat} {line : Bytes} {lines : List Bytes}
      (hchunks : source.AllChunks) (hlines : physicalLines source.bytes = lines) :
      StandsAt ⟨source, ⟨some (Utf8.decode line)⟩, count + 1⟩ count (line :: lines)

/-- At the end nothing is read and nothing changes. -/
theorem StandsAt.nextRawLine_nil {cursor : Cursor} {count : Nat} (h : cursor.StandsAt count []) :
    cursor.nextRawLine = .ok none cursor ∧ cursor.line = count := by
  cases h with
  | @unread source _ _ hchunks hlines =>
    have hbytes : source.bytes = [] := by
      rw [← flatten_physicalLines source.bytes, hlines, List.flatten_nil]
    rw [hchunks.eq_nil hbytes]
    exact ⟨rfl, rfl⟩

/-- A line that is still to come is the next one read, and afterwards the slot is empty. -/
theorem StandsAt.nextRawLine_cons {cursor : Cursor} {count : Nat} {line : Bytes}
    {lines : List Bytes} (h : cursor.StandsAt count (line :: lines)) :
    ∃ source, cursor.nextRawLine = .ok (some (Utf8.decode line)) ⟨source, .empty, count + 1⟩ ∧
      StandsAt ⟨source, .empty, count + 1⟩ (count + 1) lines := by
  cases h with
  | waiting hchunks hlines => exact ⟨_, rfl, .unread hchunks hlines⟩
  | @unread source _ _ hchunks hlines =>
    -- The bytes start with the line that is read, since there is one.
    have hne : source.bytes ≠ [] := by
      intro hnil
      rw [hnil] at hlines
      cases hlines
    rw [physicalLines_eq_cons hne, List.cons.injEq] at hlines
    obtain ⟨source', hread, hchunks', hbytes⟩ := hchunks.readLine_eq
    rw [hlines.1] at hread
    rw [← hbytes] at hlines
    refine ⟨source', ?_, .unread hchunks' hlines.2⟩
    cases line with
    | nil => exact absurd (firstLine_eq_nil.mp hlines.1) hne
    | cons b line => simp only [nextRawLine, Slot.take, Slot.held_empty, hread]

/-- A line that was just read can be handed back, and is then the next one again. -/
theorem StandsAt.pushBack {source : Source} {count : Nat} {lines : List Bytes}
    (h : StandsAt ⟨source, .empty, count + 1⟩ (count + 1) lines) (line : Bytes) :
    Cursor.pushBack (Utf8.decode line) ⟨source, .empty, count + 1⟩ =
        .ok () ⟨source, ⟨some (Utf8.decode line)⟩, count + 1⟩ ∧
      StandsAt ⟨source, ⟨some (Utf8.decode line)⟩, count + 1⟩ count (line :: lines) := by
  cases h with
  | unread hchunks hlines => exact ⟨rfl, .waiting hchunks hlines⟩

/-- A peek sees the byte that the next line starts with, whether the line waits or is unread. -/
theorem StandsAt.peekByte {cursor : Cursor} {count : Nat} {lines : List Bytes}
    (h : cursor.StandsAt count lines) {a : Char} (ha : a.toNat < 0x80) :
    ∃ first, cursor.peekByte = .ok first cursor ∧
      (first = some (UInt8.ofNat a.toNat) ↔
        (lines.map Utf8.decode).head?.bind List.head? = some a) := by
  cases h with
  | waiting hchunks hlines =>
    -- The line has been decoded, and its first byte is that of its encoding.
    refine ⟨_, rfl, ?_⟩
    rw [Utf8.head?_encode_eq_some_iff ha]
    rfl
  | @unread source _ _ hchunks hlines =>
    -- The line will be decoded from the bytes that a look meets.
    obtain ⟨bs, hlook, hhead⟩ := hchunks.look_eq
    refine ⟨bs.head?, ?_, ?_⟩
    · simp only [Cursor.peekByte, Slot.held_empty, hlook]
    · rw [hhead, ← hlines]
      cases hbytes : source.bytes with
      | nil => simp [physicalLines]
      | cons b bytes =>
        rw [physicalLines_eq_cons (List.cons_ne_nil b bytes), List.map_cons, List.head?_cons,
          List.head?_cons, Option.bind_some, Utf8.head?_decode_eq_some_iff ha, firstLine]
        split <;> rfl

/-- A fresh cursor that has looked for a mark stands before the first line of the dump. -/
theorem StandsAt.consumeMark {source : Source} (hchunks : source.AllChunks) :
    ∃ found cursor', Cursor.consumeMark { source } = .ok found cursor' ∧
      cursor'.StandsAt 0 (dumpLines source.bytes) := by
  obtain ⟨count, source', hmatch, hchunks', hfull⟩ := hchunks.matchMark_eq (Nat.zero_le _)
  obtain ⟨-, hle, hbytes⟩ := Source.bytes_of_matchMark_eq_ok (Nat.zero_le _) hmatch
  rw [List.take_zero, List.nil_append] at hbytes
  rw [List.drop_zero] at hfull
  simp only [Cursor.consumeMark, Slot.isEmpty_empty, if_true, hmatch]
  split
  next hmark =>
    -- A whole mark has been consumed, and is no part of the lines.
    refine ⟨_, _, rfl, .unread hchunks' ?_⟩
    rw [dumpLines, hbytes, hmark, List.take_length, dropMark_mark_append]
  next hshort =>
    -- The search has stopped short, so there is no mark, and nothing to drop.
    have hdrop : dropMark source.bytes = source.bytes :=
      dropMark_of_unmarked fun hprefix => hshort (hfull hprefix)
    split
    next hzero =>
      refine ⟨_, _, rfl, .unread hchunks' ?_⟩
      rw [dumpLines, hdrop, hbytes, hzero, List.take_zero, List.nil_append]
    next hpos =>
      -- Part of a mark has been consumed: it is the front of the first line, and holds no newline.
      have hmem := newline_not_mem_take_mark count
      have hne : byteOrderMark.take count ++ source'.bytes ≠ [] :=
        List.append_ne_nil_of_left_ne_nil (take_mark_ne_nil hpos) _
      obtain ⟨source'', hread, hchunks'', hbytes'⟩ := hchunks'.readLine_eq
      simp only [restoreLine, hread]
      refine ⟨_, _, rfl, ?_⟩
      rw [dumpLines, hdrop, hbytes, physicalLines_eq_cons hne, firstLine_append_of_not_mem hmem,
        afterFirstLine_append_of_not_mem hmem, ← hbytes']
      exact .waiting hchunks'' rfl

/-- Either all lines to come are unread, and all lines that were read have been handed out, or the
first line to come has been read and waits. -/
theorem StandsAt.slot_cases {cursor : Cursor} {count : Nat} {lines : List Bytes}
    (h : cursor.StandsAt count lines) :
    (cursor.slot = .empty ∧ cursor.line = count ∧ cursor.source.bytes = lines.flatten) ∨
    ∃ line rest, lines = line :: rest ∧ cursor.slot = ⟨some (Utf8.decode line)⟩ ∧
      cursor.line = count + 1 ∧ cursor.source.bytes = rest.flatten := by
  cases h with
  | unread hchunks hlines =>
    refine .inl ⟨rfl, rfl, ?_⟩
    rw [← hlines, flatten_physicalLines]
  | waiting hchunks hlines =>
    refine .inr ⟨_, _, rfl, rfl, rfl, ?_⟩
    rw [← hlines, flatten_physicalLines]

/-- What is still to come is what reading on gives. -/
theorem StandsAt.yields {cursor : Cursor} {count : Nat} {lines : List Bytes}
    (h : cursor.StandsAt count lines) : cursor.Yields (lines.map Utf8.decode) := by
  induction lines generalizing cursor count with
  | nil => exact .nothing h.nextRawLine_nil.1
  | cons line lines ih =>
    obtain ⟨source, hread, hrest⟩ := h.nextRawLine_cons
    exact .line hread (ih hrest)

end Cursor

end LinkDump
