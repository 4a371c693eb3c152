import LinkDump.Proofs.HeaderScan
import LinkDump.Proofs.LinkLines
import LinkDump.Proofs.RecordLines

/-! # Reading records of fixed width
Where a record ends is only known one line too late: the line that starts the next one has been
read by then, and is handed back. So there are two runs, one inside the other. The inner one goes
over the lines that continue a record, and leaves the cursor before the next record, whether that
line is still unread or waits in the slot. The outer one goes over the records. -/

namespace LinkDump

/-- What is wrong with a line that should start a record and has no bar in place. -/
def LineError.misplaced (width : Nat) (line : Text) : LineError :=
  if '|' ∈ line then .barNotAtWidth width (dropLineBreak line) else .missingBar (dropLineBreak line)

namespace FixedRecord

/-- A line with its bar in place is handed back. -/
theorem absorb_of_barAt {record : FixedRecord} {line : Text} (h : BarAt record.width line) :
    record.absorb line = (some line, record) := by
  rw [absorb, if_pos (isRecordStart_iff_barAt.mpr h)]

/-- Any other line becomes part of the target, line break and all. -/
theorem absorb_of_not_barAt {record : FixedRecord} {line : Text} (h : ¬BarAt record.width line) :
    record.absorb line = (none, { record with target := record.target ++ line }) := by
  rw [absorb, if_neg (mt isRecordStart_iff_barAt.mp h)]

/-- A record is started by the texts with a bar in place, and has the text on either side of it. -/
theorem start_eq_ok_iff {width : Nat} {line : Text} {record : FixedRecord} :
    start width line = .ok record ↔
      line = record.source ++ '|' :: record.target ∧ Utf8.size record.source = width ∧
        record.width = width := by
  constructor
  · intro h
    rw [start] at h
    split at h
    next source target hsplit =>
      cases h
      obtain ⟨hline, hsize⟩ := eq_of_splitBarAt hsplit
      exact ⟨hline, hsize, rfl⟩
    · split at h <;> cases h
  · rintro ⟨rfl, hsize, hwidth⟩
    rw [start, ← hsize, splitBarAt_size, hsize, ← hwidth]

/-- A line without its bar in place starts no record, and is refused for it. -/
theorem start_of_not_barAt {width : Nat} {line : Text} (h : ¬BarAt width line) :
    start width line = .error (.misplaced width line) := by
  simp only [start, splitBarAt_eq_none h, LineError.misplaced]
  split <;> rfl

end FixedRecord

/-- The first line of a record starts it. -/
theorem RecordLines.Fits.start_first {width : Nat} {record : RecordLines} (h : record.Fits width) :
    FixedRecord.start width record.first = .ok ⟨width, record.source, record.text⟩ :=
  FixedRecord.start_eq_ok_iff.mpr ⟨rfl, h.size_eq, rfl⟩

namespace Cursor

variable {cursor : Cursor} {count width : Nat}

/-- The cursor stands before these lines, and has had to look at the first of them, if there is one,
to find that out: that line waits. -/
structure WaitsAt (cursor : Cursor) (count : Nat) (lines : List Bytes) : Prop where
  standsAt : cursor.StandsAt count lines
  slot_ne_empty : lines ≠ [] → cursor.slot ≠ .empty

/-! ## The lines of one record -/

/-- Where a record ends, whether with all lines or with the next record, it is complete, and what
follows is still to come. -/
theorem StandsAt.absorbLines_end {back : List Bytes} (h : cursor.StandsAt count back)
    {record : FixedRecord}
    (hback : ∀ line ∈ (back.map Utf8.decode).head?, BarAt record.width line) :
    ∃ cursor', cursor.absorbLines record = .ok record.finish cursor' ∧
      cursor'.WaitsAt count back := by
  cases back with
  | nil =>
    refine ⟨cursor, ?_, h, fun hne => absurd rfl hne⟩
    rw [absorbLines_eq, h.nextRawLine_nil.1]
  | cons line back =>
    -- The line that starts the next record has been read, and goes back into the slot.
    have hbar : BarAt record.width (Utf8.decode line) := hback _ rfl
    obtain ⟨source, hread, hstands⟩ := h.nextRawLine_cons
    obtain ⟨hpush, hwaiting⟩ := hstands.pushBack line
    refine ⟨_, ?_, hwaiting, fun _ => nofun⟩
    rw [absorbLines_eq, hread]
    simp only [FixedRecord.absorb_of_barAt hbar, hpush]

/-- A line without a bar in place is added to the record, which then goes on. -/
theorem StandsAt.absorbLines_line {line : Bytes} {lines : List Bytes}
    (h : cursor.StandsAt count (line :: lines)) {record : FixedRecord}
    (hline : ¬BarAt record.width (Utf8.decode line)) :
    ∃ cursor' : Cursor, cursor'.StandsAt (count + 1) lines ∧ cursor.absorbLines record =
      cursor'.absorbLines { record with target := record.target ++ Utf8.decode line } := by
  obtain ⟨source, hread, hstands⟩ := h.nextRawLine_cons
  refine ⟨_, hstands, ?_⟩
  rw [absorbLines_eq, hread]
  simp only [FixedRecord.absorb_of_not_barAt hline]

/-- A record is completed with all lines up to the start of the next one, and with no others. -/
theorem StandsAt.absorbLines_run {front back : List Bytes}
    (h : cursor.StandsAt count (front ++ back)) (record : FixedRecord)
    (hfront : ∀ line ∈ front.map Utf8.decode, ¬BarAt record.width line)
    (hback : ∀ line ∈ (back.map Utf8.decode).head?, BarAt record.width line) :
    ∃ cursor', cursor'.WaitsAt (count + front.length) back ∧
      cursor.absorbLines record = .ok (FixedRecord.finish
        { record with target := record.target ++ (front.map Utf8.decode).flatten }) cursor' := by
  induction front generalizing cursor count record with
  | nil =>
    obtain ⟨cursor', hrun, hwaits⟩ := StandsAt.absorbLines_end h hback
    refine ⟨cursor', hwaits, ?_⟩
    rw [hrun, List.map_nil, List.flatten_nil, List.append_nil]
  | cons line front ih =>
    rw [List.map_cons, List.forall_mem_cons] at hfront
    obtain ⟨cursor₁, hstands₁, hstep⟩ := StandsAt.absorbLines_line h hfront.1
    obtain ⟨cursor₂, hwaits₂, hrun⟩ := ih hstands₁
      { record with target := record.target ++ Utf8.decode line } hfront.2 hback
    refine ⟨cursor₂, ?_, ?_⟩
    · rwa [add_length_cons]
    · rw [hstep, hrun, List.map_cons, List.flatten_cons, List.append_assoc]

/-! ## One link -/

/-- The lines of a record give its link, and the next record is left alone. -/
theorem StandsAt.readLink_record {record : RecordLines} (hfits : record.Fits width)
    {front back : List Bytes} (h : cursor.StandsAt count (front ++ back))
    (hfront : front.map Utf8.decode = record.lines)
    (hback : ∀ line ∈ (back.map Utf8.decode).head?, BarAt width line) :
    ∃ cursor', cursor'.WaitsAt (count + front.length) back ∧
      cursor.readLink (.fixedWidth width) = .ok (some record.link) cursor' := by
  cases front with
  | nil => cases hfront
  | cons line front =>
    rw [List.map_cons, RecordLines.lines, List.cons.injEq] at hfront
    obtain ⟨source, hread, hstands⟩ := h.nextRawLine_cons
    -- The first line starts the record, and the run over the others completes it.
    have hmore : ∀ line ∈ front.map Utf8.decode, ¬BarAt width line := by
      rw [hfront.2]
      exact hfits.more
    obtain ⟨cursor', hwaits, hrun⟩ :=
      StandsAt.absorbLines_run hstands ⟨width, record.source, record.text⟩ hmore hback
    refine ⟨cursor', ?_, ?_⟩
    · rwa [add_length_cons]
    · simp only [readLink, readFixed, hread, hfront.1, hfits.start_first, hrun, hfront.2]
      rfl

/-- A line that has no bar in place where a record should start is an error. -/
theorem StandsAt.readLink_misplaced {line : Bytes} {lines : List Bytes}
    (h : cursor.StandsAt count (line :: lines)) (hline : ¬BarAt width (Utf8.decode line)) :
    ∃ cursor', cursor.readLink (.fixedWidth width) =
        .error (.misplaced width (Utf8.decode line)) cursor' ∧
      cursor'.line = count + 1 := by
  obtain ⟨source, hread, -⟩ := h.nextRawLine_cons
  refine ⟨⟨source, .empty, count + 1⟩, ?_, rfl⟩
  simp only [readLink, readFixed, hread, FixedRecord.start_of_not_barAt hline]

end Cursor

/-- What follows a record, or precedes all records, begins with the start of the next. -/
theorem RecordLines.barAt_head? {width : Nat} {records : List RecordLines}
    (h : ∀ record ∈ records, record.Fits width) {line : Text}
    (hline : line ∈ (records.flatMap RecordLines.lines).head?) : BarAt width line := by
  cases records with
  | nil => cases hline
  | cons record records =>
    obtain rfl : record.first = line := Option.some.inj hline
    exact (h record List.mem_cons_self).barAt_first

/-- A run over records gives the link of each, in order, and then the end. -/
theorem Reader.readLinks_of_records {cursor : Cursor} {count width : Nat} {lines : List Bytes}
    (h : cursor.StandsAt count lines) {records : List RecordLines}
    (hfits : ∀ record ∈ records, record.Fits width)
    (hlines : lines.map Utf8.decode = records.flatMap RecordLines.lines)
    (fields : List MetaField) :
    ∃ cursor' : Cursor, cursor'.line = count + lines.length ∧
      readLinks ⟨cursor, .fixedWidth width, fields, .links⟩ =
        (records.map RecordLines.link, none, ⟨cursor', .fixedWidth width, fields, .done⟩) := by
  induction records generalizing cursor count lines with
  | nil =>
    obtain rfl : lines = [] := by simpa using hlines
    refine ⟨cursor, h.nextRawLine_nil.2, ?_⟩
    rw [readLinks_of_end (h.readLink_nil _)]
    rfl
  | cons record records ih =>
    rw [List.forall_mem_cons] at hfits
    rw [List.flatMap_cons] at hlines
    obtain ⟨front, back, rfl, hfront, hback⟩ := List.map_eq_append_iff.mp hlines
    -- Behind this record is the next one, or nothing.
    have hnext : ∀ line ∈ (back.map Utf8.decode).head?, BarAt width line := by
      intro line hline
      rw [hback] at hline
      exact RecordLines.barAt_head? hfits.2 hline
    obtain ⟨cursor₁, hwaits₁, hread⟩ := h.readLink_record hfits.1 hfront hnext
    obtain ⟨cursor₂, hline, hrun⟩ := ih hwaits₁.standsAt hfits.2 hback
    refine ⟨cursor₂, ?_, ?_⟩
    · rw [hline, List.length_append, Nat.add_assoc]
    · rw [readLinks_of_link hread, hrun, List.map_cons]

/-- The meaning of a dump with sources of a fixed width, for a dump that arrives in chunks of any
sizes and whose header is accepted. Without a line behind the header there are no links. If the
first of these lines has no bar in place, it is refused and nothing is read after it. If it has, the
lines fall into records. Then decoding cannot fail: it reads every line, and gives the link of each
record, one for each line that has its bar in place. -/
theorem decode_of_records {source : Source} (hchunks : source.AllChunks) (width : Nat)
    {fields : List MetaField} {reader : Reader}
    (hscan : (Reader.ofSource (.fixedWidth width) source).readFields = .ok fields reader) :
    (linkTexts source.bytes = [] → decode (.fixedWidth width) source =
      ⟨fields, [], none, (dumpTexts source.bytes).length⟩) ∧
    (∀ line after, linkTexts source.bytes = line :: after → ¬BarAt width line →
      decode (.fixedWidth width) source =
        ⟨fields, [], some ⟨headerLength (dumpTexts source.bytes) + 1, .misplaced width line⟩,
          headerLength (dumpTexts source.bytes) + 1⟩) ∧
    (∀ line after, linkTexts source.bytes = line :: after → BarAt width line →
      ∃ records : List RecordLines, records.flatMap RecordLines.lines = linkTexts source.bytes ∧
        ∀ record ∈ records, record.Fits width) ∧
    (∀ records : List RecordLines, records.flatMap RecordLines.lines = linkTexts source.bytes →
      (∀ record ∈ records, record.Fits width) →
      records.map RecordLines.first = (linkTexts source.bytes).filter (BarAt width ·) ∧
      decode (.fixedWidth width) source = ⟨fields, records.map RecordLines.link, none,
        (dumpTexts source.bytes).length⟩) := by
  obtain ⟨cursor, lines, rfl, hstands, hdecoded⟩ :=
    Reader.standsAt_of_readFields_eq_ok hchunks hscan
  -- Any way in which the lines fall into records is how they are read.
  have hrun : ∀ records : List RecordLines,
      records.flatMap RecordLines.lines = linkTexts source.bytes →
      (∀ record ∈ records, record.Fits width) →
      decode (.fixedWidth width) source = ⟨fields, records.map RecordLines.link, none,
        (dumpTexts source.bytes).length⟩ := by
    intro records hlines hfits
    rw [← hdecoded] at hlines
    obtain ⟨cursor', hline, hlinks⟩ :=
      Reader.readLinks_of_records hstands hfits hlines.symm fields
    rw [decode_of_readFields_eq_ok hscan, Reader.finish, hlinks]
    simp only [Reader.line, hline, ← headerLength_add_length_linkTexts, ← hdecoded,
      List.length_map]
  refine ⟨?_, ?_, ?_, ?_⟩
  · intro hnone
    exact hrun [] hnone.symm (List.forall_mem_nil _)
  · intro line after hlines hline
    rw [← hdecoded] at hlines
    obtain ⟨line', lines', rfl, rfl, -⟩ := List.map_eq_cons_iff.mp hlines
    obtain ⟨cursor', hread, hcount⟩ := hstands.readLink_misplaced hline
    rw [decode_of_readFields_eq_ok hscan, Reader.finish, Reader.readLinks_of_error hread]
    simp only [Reader.line, hcount]
  · intro line after hlines hline
    rw [hlines]
    exact RecordLines.exists_records_of_barAt hline after
  · intro records hlines hfits
    refine ⟨?_, hrun records hlines hfits⟩
    rw [← hlines, RecordLines.filter_barAt_flatMap hfits]

/-- Behind `#A: 1` and a blank line, two records of width 2, the first of which has two lines. -/
theorem decode_two_records :
    decode (.fixedWidth 2)
        [.chunk 0x23 [0x41, 0x3A], .chunk 0x20 [0x31, 0x0A, 0x0A, 0x61, 0x62],
          .chunk 0x7C [0x78, 0x0D, 0x0A, 0x79, 0x7C, 0x0D, 0x0A, 0x63, 0x64, 0x7C, 0x7A]] =
      ⟨[⟨['A'], ['1']⟩],
        [⟨['a', 'b'], ['x', '\r', '\n', 'y', '|'], []⟩, ⟨['c', 'd'], ['z'], []⟩], none, 5⟩ := by
  have hchunks : Source.AllChunks
      [.chunk 0x23 [0x41, 0x3A], .chunk 0x20 [0x31, 0x0A, 0x0A, 0x61, 0x62],
        .chunk 0x7C [0x78, 0x0D, 0x0A, 0x79, 0x7C, 0x0D, 0x0A, 0x63, 0x64, 0x7C, 0x7A]] := by
    simp
  obtain ⟨cursor, lines, hscan, -⟩ :=
    Reader.readFields_of_accepted (.fixedWidth 2) hchunks [⟨['A'], ['1']⟩] (by decide)
  exact ((decode_of_records hchunks 2 hscan).2.2.2
    [⟨['a', 'b'], ['x', '\r', '\n'], [['y', '|', '\r', '\n']]⟩, ⟨['c', 'd'], ['z'], []⟩]
    (by decide) (by decide)).2

end LinkDump
