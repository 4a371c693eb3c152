import LinkDump.Decoded
import LinkDump.Header
import LinkDump.Record.Reading

/-! # Readers
A reader decodes a dump from a source: its meta fields on demand, and one link per call. The header
is scanned once, by whichever call comes first. An error ends the reading, after which every call
for a link gives nothing; the fields that were read before it stay. -/

namespace LinkDump

/-- A dump that is being decoded. -/
structure Reader where
  cursor : Cursor
  dialect : Dialect
  fields : List MetaField := []
  phase : Phase := .header
  deriving Repr, DecidableEq

namespace Reader

/-- What a call gives: a value or an error, and the reader after it. -/
abbrev Answer (α : Type) := EStateM.Result DecodeError Reader α

/-- A reader of a source that nothing has been read from. -/
def ofSource (dialect : Dialect) (source : Source) : Reader := { cursor := { source }, dialect }

/-- The number of physical lines read so far. -/
def line (reader : Reader) : Nat := reader.cursor.line

/-- End the reading with an error at the current line. -/
def fail {α : Type} (cause : LineError) (reader : Reader) : Answer α :=
  .error ⟨reader.line, cause⟩ { reader with phase := .done }

/-- The meta fields, in file order. The first call scans the header; later calls give the same
fields again. -/
def readFields (reader : Reader) : Answer (List MetaField) :=
  match reader.phase with
  | .header =>
    match reader.cursor.scanHeader with
    | (scanner, .ok () cursor) =>
      .ok scanner.fields { reader with cursor, fields := scanner.fields, phase := .links }
    | (scanner, .error cause cursor) => { reader with cursor, fields := scanner.fields }.fail cause
  | _ => .ok reader.fields reader

/-- The next link, or nothing at the end and after an error. -/
def readLink (reader : Reader) : Answer (Option Link) :=
  match reader.readFields with
  | .error e reader => .error e reader
  | .ok _ reader =>
    match reader.phase with
    | .done => .ok none reader
    | _ =>
      match reader.cursor.readLink reader.dialect with
      | .ok (some link) cursor => .ok (some link) { reader with cursor }
      | .ok none cursor => .ok none { reader with cursor, phase := .done }
      | .error cause cursor => { reader with cursor }.fail cause

/-- The next item of the sequence of links, in which an error is the last item. -/
def next (reader : Reader) : Option (Except DecodeError Link) × Reader :=
  match reader.readLink with
  | .ok none reader => (none, reader)
  | .ok (some link) reader => (some (.ok link), reader)
  | .error e reader => (some (.error e), reader)

/-- At most `count` further items. -/
def take : Nat → Reader → List (Except DecodeError Link) × Reader
  | 0, reader => ([], reader)
  | count + 1, reader =>
    match reader.next with
    | (none, reader) => ([], reader)
    | (some item, reader) =>
      let (items, reader) := take count reader
      (item :: items, reader)

/-! ## Reading to the end -/

/-- Reading the fields never leaves more to do. -/
theorem pending_le_of_readFields {reader reader' : Reader} {fields : List MetaField}
    (h : reader.readFields = .ok fields reader') :
    reader'.cursor.pending ≤ reader.cursor.pending := by
  rw [readFields] at h
  split at h
  · split at h
    next hscan =>
      cases h
      exact Cursor.pending_le_of_scanHeader (congrArg Prod.snd hscan)
    · cases h
  · cases h
    exact Nat.le_refl _

/-- Each link read leaves less to do. -/
theorem pending_lt_of_readLink {reader reader' : Reader} {link : Link}
    (h : reader.readLink = .ok (some link) reader') :
    reader'.cursor.pending < reader.cursor.pending := by
  rw [readLink] at h
  split at h
  · cases h
  next hfields =>
    have hle := pending_le_of_readFields hfields
    split at h
    · cases h
    · split at h
      next hread =>
        cases h
        exact Nat.lt_of_lt_of_le (Cursor.pending_lt_of_readLink hread) hle
      · cases h
      · cases h

/-- All further links, the error that ended them if there was one, and the reader after that. -/
def readLinks (reader : Reader) : List Link × Option DecodeError × Reader :=
  match _h : reader.readLink with
  | .ok none reader => ([], none, reader)
  | .error e reader => ([], some e, reader)
  | .ok (some link) reader =>
    let (links, failure, reader) := readLinks reader
    (link :: links, failure, reader)
termination_by reader.cursor.pending
decreasing_by exact pending_lt_of_readLink _h

/-- Read to the end, and say all that was found. -/
def finish (reader : Reader) : Decoded :=
  let (links, failure, reader) := reader.readLinks
  { fields := reader.fields, links, failure, line := reader.line }

end Reader

/-- Decode all of a source. -/
def decode (dialect : Dialect) (source : Source) : Decoded :=
  (Reader.ofSource dialect source).finish

end LinkDump
