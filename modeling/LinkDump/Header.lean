import LinkDump.Cursor
import LinkDump.MetaField

/-! # The header
A dump may start with header lines, each a meta field behind `#`. They end at the first line that
does not start with `#`, or at a run of blank lines, which belongs to the header. `Scanner` decides
that one line at a time, with no source in sight; `Cursor.scanHeader` feeds it from a cursor. -/

namespace LinkDump

/-- Where a scan of the header stands. -/
inductive HeaderPart
  /-- Among the meta fields. -/
  | fields
  /-- Among the blank lines that end the header. -/
  | blanks
  deriving Repr, DecidableEq

/-- A scan of the header: the fields so far, in file order, and where it stands. -/
structure Scanner where
  fields : List MetaField := []
  part : HeaderPart := .fields
  deriving Repr, DecidableEq

namespace Scanner

/-- What a line means to a scan. -/
inductive Verdict
  /-- The header goes on. -/
  | more
  /-- The header is over, and this line is not part of it. -/
  | done (line : Text)
  deriving Repr, DecidableEq

/-- Offer the next line with its line break. A line that is refused, or that ends the header, leaves
the scan as it was. -/
def feed (scanner : Scanner) (raw : Text) : Except LineError Verdict × Scanner :=
  let line := dropLineBreak raw
  match scanner.part with
  | .fields =>
    if isBlank line then (.ok .more, { scanner with part := .blanks })
    else match line with
      | '#' :: text =>
        match MetaField.ofText text with
        | .ok field => (.ok .more, { scanner with fields := scanner.fields ++ [field] })
        | .error e => (.error e, scanner)
      | _ => (.ok (.done raw), scanner)
  | .blanks => if isBlank line then (.ok .more, scanner) else (.ok (.done raw), scanner)

end Scanner

namespace Cursor

/-- Feed lines to a scan until it is done or the lines end. The line that ends the header is handed
back. The scan is given even if a line is refused. -/
def scanLines (scanner : Scanner) (cursor : Cursor) : Scanner × Answer Unit :=
  match _h : cursor.nextRawLine with
  | .error e cursor => (scanner, .error e cursor)
  | .ok none cursor => (scanner, .ok () cursor)
  | .ok (some raw) cursor =>
    match scanner.feed raw with
    | (.error e, scanner) => (scanner, .error e cursor)
    | (.ok .more, scanner) => scanLines scanner cursor
    | (.ok (.done line), scanner) => (scanner, cursor.pushBack line)
termination_by cursor.pending
decreasing_by exact pending_lt_of_nextRawLine _h

/-- Go on with a scan where no byte order mark is to be expected: feed it lines, if the next one
starts with `#`. -/
def scanUnmarked (scanner : Scanner) (cursor : Cursor) : Scanner × Answer Unit :=
  match cursor.peekByte with
  | .error e cursor => (scanner, .error e cursor)
  | .ok first cursor =>
    if first = some 0x23 then cursor.scanLines scanner else (scanner, .ok () cursor)

/-- Scan a header into a scan that may have begun before: a byte order mark, if there is one, and
what follows it. -/
def scanInto (scanner : Scanner) (cursor : Cursor) : Scanner × Answer Unit :=
  match cursor.consumeMark with
  | .error e cursor => (scanner, .error e cursor)
  | .ok _ cursor => cursor.scanUnmarked scanner

/-- Scan the header: a byte order mark, if there is one, and header lines, if the first line starts
with `#`. -/
def scanHeader (cursor : Cursor) : Scanner × Answer Unit := cursor.scanInto {}

/-- A scan of the header deals with the mark first. -/
theorem scanHeader_eq_scanUnmarked (cursor : Cursor) :
    cursor.scanHeader = match cursor.consumeMark with
      | .error e cursor => ({}, .error e cursor)
      | .ok _ cursor => cursor.scanUnmarked {} := rfl

/-- Feeding lines to a scan never leaves more to do. -/
theorem pending_le_of_scanLines {scanner : Scanner} {cursor cursor' : Cursor}
    (h : (cursor.scanLines scanner).2 = .ok () cursor') : cursor'.pending ≤ cursor.pending := by
  fun_induction scanLines scanner cursor with
  | case1 => cases h
  | case2 scanner cursor cursor₁ hread =>
    cases h
    exact pending_le_of_nextRawLine hread
  | case3 => cases h
  | case4 scanner cursor raw cursor₁ hread scanner₁ hfeed ih =>
    exact Nat.le_trans (ih h) (pending_le_of_nextRawLine hread)
  | case5 scanner cursor raw cursor₁ hread line scanner₁ hfeed =>
    have := pending_of_pushBack h
    have := pending_lt_of_nextRawLine hread
    omega

/-- Behind the mark, a scan never leaves more to do. -/
theorem pending_le_of_scanUnmarked {scanner : Scanner} {cursor cursor' : Cursor}
    (h : (cursor.scanUnmarked scanner).2 = .ok () cursor') : cursor'.pending ≤ cursor.pending := by
  rw [scanUnmarked] at h
  split at h
  · cases h
  next hpeek =>
    rw [← pending_of_peekByte hpeek]
    split at h
    · exact pending_le_of_scanLines h
    · cases h
      exact Nat.le_refl _

/-- Scanning the header never leaves more to do. -/
theorem pending_le_of_scanHeader {cursor cursor' : Cursor}
    (h : cursor.scanHeader.2 = .ok () cursor') : cursor'.pending ≤ cursor.pending := by
  rw [scanHeader_eq_scanUnmarked] at h
  split at h
  · cases h
  next hmark =>
    exact Nat.le_trans (pending_le_of_scanUnmarked h) (pending_le_of_consumeMark hmark)

end Cursor

end LinkDump
