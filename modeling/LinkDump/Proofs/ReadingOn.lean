import LinkDump.Reader

/-! # Reading on
The loops that read on, each opened once: the one that completes a record, and the one that reads
all links. What the second does with the reply to its first call, and what that reply is once the
header is over, is all that later proofs need of it. -/

namespace LinkDump

/-- A record goes on with the next line, unless that is handed back or there is none. -/
theorem Cursor.absorbLines_eq (record : FixedRecord) (cursor : Cursor) :
    cursor.absorbLines record = match cursor.nextRawLine with
      | .error e cursor => .error e cursor
      | .ok none cursor => .ok record.finish cursor
      | .ok (some raw) cursor =>
        match record.absorb raw with
        | (none, record) => cursor.absorbLines record
        | (some next, record) =>
          match cursor.pushBack next with
          | .ok () cursor => .ok record.finish cursor
          | .error e cursor => .error e cursor := by
  rw [absorbLines]
  split
  next hread => rw [hread]
  next hread => rw [hread]
  next hread => exact hread ▸ rfl

namespace Reader

/-- All links are the first one and those that follow it, up to the end or an error. -/
theorem readLinks_eq (reader : Reader) :
    reader.readLinks = match reader.readLink with
      | .ok none reader => ([], none, reader)
      | .error e reader => ([], some e, reader)
      | .ok (some link) reader => (link :: reader.readLinks.1, reader.readLinks.2) := by
  rw [readLinks]
  split
  next hread => rw [hread]
  next hread => rw [hread]
  next hread => rw [hread]

variable {cursor cursor' : Cursor} {dialect : Dialect} {fields : List MetaField}

/-- Behind the header a link is what the cursor gives. -/
theorem readLink_eq (cursor : Cursor) (dialect : Dialect) (fields : List MetaField) :
    readLink ⟨cursor, dialect, fields, .links⟩ = match cursor.readLink dialect with
      | .ok (some link) cursor => .ok (some link) ⟨cursor, dialect, fields, .links⟩
      | .ok none cursor => .ok none ⟨cursor, dialect, fields, .done⟩
      | .error cause cursor => .error ⟨cursor.line, cause⟩ ⟨cursor, dialect, fields, .done⟩ := by
  rw [readLink, readFields]
  rfl

/-- A link that is read comes before all further ones. -/
theorem readLinks_of_link {link : Link} (h : cursor.readLink dialect = .ok (some link) cursor') :
    readLinks ⟨cursor, dialect, fields, .links⟩ =
      (link :: (readLinks ⟨cursor', dialect, fields, .links⟩).1,
        (readLinks ⟨cursor', dialect, fields, .links⟩).2) := by
  rw [readLinks_eq, readLink_eq, h]

/-- Where no link is left, reading has come to its end. -/
theorem readLinks_of_end (h : cursor.readLink dialect = .ok none cursor') :
    readLinks ⟨cursor, dialect, fields, .links⟩ =
      ([], none, ⟨cursor', dialect, fields, .done⟩) := by
  rw [readLinks_eq, readLink_eq, h]

/-- An error ends the reading of links. -/
theorem readLinks_of_error {cause : LineError}
    (h : cursor.readLink dialect = .error cause cursor') :
    readLinks ⟨cursor, dialect, fields, .links⟩ =
      ([], some ⟨cursor'.line, cause⟩, ⟨cursor', dialect, fields, .done⟩) := by
  rw [readLinks_eq, readLink_eq, h]

end Reader

/-- Decoding a whole dump is scanning its header and then reading all links. -/
theorem decode_of_readFields_eq_ok {dialect : Dialect} {source : Source} {cursor : Cursor}
    {fields : List MetaField}
    (h : (Reader.ofSource dialect source).readFields =
      .ok fields ⟨cursor, dialect, fields, .links⟩) :
    decode dialect source = Reader.finish ⟨cursor, dialect, fields, .links⟩ := by
  have hlink : (Reader.ofSource dialect source).readLink =
      Reader.readLink ⟨cursor, dialect, fields, .links⟩ := by
    rw [Reader.readLink, h, Reader.readLink, Reader.readFields]
  have hlinks : (Reader.ofSource dialect source).readLinks =
      Reader.readLinks ⟨cursor, dialect, fields, .links⟩ := by
    rw [Reader.readLinks_eq, hlink, ← Reader.readLinks_eq]
  rw [decode, Reader.finish, Reader.finish, hlinks]

/-- Behind a header that is scanned, decoding is reading to the end. -/
theorem decode_of_scanHeader_eq_ok {dialect : Dialect} {source : Source} {scanner : Scanner}
    {cursor : Cursor} (h : Cursor.scanHeader { source } = (scanner, .ok () cursor)) :
    decode dialect source = Reader.finish ⟨cursor, dialect, scanner.fields, .links⟩ := by
  apply decode_of_readFields_eq_ok
  simp only [Reader.readFields, Reader.ofSource, h]

/-- A header that fails ends decoding, with the fields before the error. -/
theorem decode_of_scanHeader_eq_error {dialect : Dialect} {source : Source} {scanner : Scanner}
    {cause : LineError} {cursor : Cursor}
    (h : Cursor.scanHeader { source } = (scanner, .error cause cursor)) :
    decode dialect source =
      ⟨scanner.fields, [], some ⟨cursor.line, cause⟩, cursor.line⟩ := by
  have hfields : (Reader.ofSource dialect source).readFields =
      .error ⟨cursor.line, cause⟩ ⟨cursor, dialect, scanner.fields, .done⟩ := by
    simp only [Reader.readFields, Reader.ofSource, h, Reader.fail, Reader.line]
  rw [decode, Reader.finish, Reader.readLinks_eq, Reader.readLink, hfields]
  rfl

end LinkDump
