import LinkDump.Cursor
import LinkDump.Dialect
import LinkDump.Record.Bars
import LinkDump.Record.FixedWidth

/-! # Reading records
The next link from a cursor, by each of the three rules. Two of them take exactly one line; the rule
of fixed width reads on until it meets the start of the next record, which it hands back. -/

namespace LinkDump

namespace Cursor

/-- Turn the next line, if there is one, into a link. -/
def parseLine (parse : Text → Except LineError Link) : Answer (Option Text) → Answer (Option Link)
  | .error e cursor => .error e cursor
  | .ok none cursor => .ok none cursor
  | .ok (some line) cursor =>
    match parse line with
    | .ok link => .ok (some link) cursor
    | .error e => .error e cursor

/-- The next link, with its fields between bars. -/
def readBars (cursor : Cursor) : Answer (Option Link) := parseLine Link.ofBars cursor.nextLine

/-- The next link, its source ended by the first bar. -/
def readFirstBar (cursor : Cursor) : Answer (Option Link) :=
  parseLine Link.ofFirstBar cursor.nextRawLine

/-- Complete a record with the lines that continue it. -/
def absorbLines (record : FixedRecord) (cursor : Cursor) : Answer Link :=
  match _h : cursor.nextRawLine with
  | .error e cursor => .error e cursor
  | .ok none cursor => .ok record.finish cursor
  | .ok (some raw) cursor =>
    match record.absorb raw with
    | (none, record) => absorbLines record cursor
    | (some next, record) =>
      match cursor.pushBack next with
      | .ok () cursor => .ok record.finish cursor
      | .error e cursor => .error e cursor
termination_by cursor.pending
decreasing_by exact pending_lt_of_nextRawLine _h

/-- The next link whose source has `width` bytes. -/
def readFixed (width : Nat) (cursor : Cursor) : Answer (Option Link) :=
  match cursor.nextRawLine with
  | .error e cursor => .error e cursor
  | .ok none cursor => .ok none cursor
  | .ok (some raw) cursor =>
    match FixedRecord.start width raw with
    | .error e => .error e cursor
    | .ok record =>
      match cursor.absorbLines record with
      | .ok link cursor => .ok (some link) cursor
      | .error e cursor => .error e cursor

/-- The next link of a dialect. -/
def readLink : Dialect → Cursor → Answer (Option Link)
  | .rfc, cursor => cursor.readBars
  | .variableWidth, cursor => cursor.readFirstBar
  | .fixedWidth width, cursor => cursor.readFixed width

/-! ## What is left to do -/

/-- Completing a record never leaves more to do: the line that it hands back has been read before.
-/
theorem pending_le_of_absorbLines {record : FixedRecord} {cursor cursor' : Cursor} {link : Link}
    (h : cursor.absorbLines record = .ok link cursor') : cursor'.pending ≤ cursor.pending := by
  fun_induction absorbLines record cursor with
  | case1 => cases h
  | case2 record cursor cursor₁ hread =>
    cases h
    exact pending_le_of_nextRawLine hread
  | case3 record cursor raw cursor₁ hread record₁ habsorb ih =>
    exact Nat.le_trans (ih h) (pending_le_of_nextRawLine hread)
  | case4 record cursor raw cursor₁ hread next record₁ habsorb cursor₂ hpush =>
    cases h
    have := pending_of_pushBack hpush
    have := pending_lt_of_nextRawLine hread
    omega
  | case5 => cases h

/-- A link that is parsed from a line leaves less to do if reading the line does. -/
theorem pending_lt_of_parseLine {parse : Text → Except LineError Link} {cursor cursor' : Cursor}
    {answer : Answer (Option Text)} {link : Link}
    (hlt : ∀ line cursor', answer = .ok (some line) cursor' → cursor'.pending < cursor.pending)
    (h : parseLine parse answer = .ok (some link) cursor') : cursor'.pending < cursor.pending := by
  rw [parseLine.eq_def] at h
  split at h
  · cases h
  · cases h
  · split at h
    · cases h
      exact hlt _ _ rfl
    · cases h

/-- Each line read without its line break leaves less to do. -/
theorem pending_lt_of_nextLine {cursor cursor' : Cursor} {line : Text}
    (h : cursor.nextLine = .ok (some line) cursor') : cursor'.pending < cursor.pending := by
  rw [nextLine] at h
  split at h
  next hread =>
    simp only [EStateM.Result.ok.injEq, Option.map_eq_some_iff] at h
    obtain ⟨⟨raw, rfl, -⟩, rfl⟩ := h
    exact pending_lt_of_nextRawLine hread
  · cases h

/-- Each record read leaves less to do, for the line that it starts with. -/
theorem pending_lt_of_readFixed {width : Nat} {cursor cursor' : Cursor} {link : Link}
    (h : cursor.readFixed width = .ok (some link) cursor') : cursor'.pending < cursor.pending := by
  rw [readFixed] at h
  split at h
  · cases h
  · cases h
  next hread =>
    split at h
    · cases h
    · split at h
      next habsorb =>
        cases h
        exact Nat.lt_of_le_of_lt (pending_le_of_absorbLines habsorb)
          (pending_lt_of_nextRawLine hread)
      · cases h

/-- Each link read leaves less to do. -/
theorem pending_lt_of_readLink {dialect : Dialect} {cursor cursor' : Cursor} {link : Link}
    (h : cursor.readLink dialect = .ok (some link) cursor') : cursor'.pending < cursor.pending := by
  cases dialect with
  | rfc => exact pending_lt_of_parseLine (fun _ _ => pending_lt_of_nextLine) h
  | variableWidth => exact pending_lt_of_parseLine (fun _ _ => pending_lt_of_nextRawLine) h
  | fixedWidth width => exact pending_lt_of_readFixed h

end Cursor

end LinkDump
