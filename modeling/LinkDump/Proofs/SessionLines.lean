import LinkDump.Proofs.DumpMeaning
import LinkDump.Proofs.FieldCalls
import LinkDump.Proofs.Linewise

/-! # The lines of a session
Over chunks a reader stands between two lines of its dump for as long as it reads, whatever is
called, and so every link of every session is made of lines that follow each other in the dump. With
one link on a line the cursor is left behind that line, and nothing waits; a record is only known to
be complete once the line behind it waits, if there is one. -/

namespace LinkDump

/-- What was taken from the rest of some lines is dropped together with those before it. -/
theorem drop_add_length {α : Type} {dump front back : List α} {count : Nat}
    (h : dump.drop count = front ++ back) : dump.drop (count + front.length) = back := by
  rw [← List.drop_drop, h, List.drop_left]

/-! ## The lines of one link -/

namespace Cursor

variable {cursor cursor' : Cursor} {count width : Nat} {dump lines : List Bytes}
  {dialect : Dialect} {link : Link}

/-- Where every link takes one line, a link is what the next line is parsed to. -/
theorem StandsAt.line_of_readLink (h : cursor.StandsAt count lines)
    {parse : Text → Except LineError Link} (hparse : dialect.ofLine = some parse)
    (hread : cursor.readLink dialect = .ok (some link) cursor') :
    ∃ line rest, lines = line :: rest ∧ parse (Utf8.decode line) = .ok link ∧
      cursor'.StandsAt (count + 1) rest ∧ cursor'.slot = .empty := by
  cases lines with
  | nil =>
    rw [h.readLink_nil] at hread
    cases hread
  | cons line rest =>
    obtain ⟨cursor₁, hstands, hline, hlink⟩ := h.readLink_line hparse
    rw [hread] at hlink
    cases hparsed : parse (Utf8.decode line) with
    | error e =>
      rw [hparsed] at hlink
      cases hlink
    | ok link' =>
      rw [hparsed] at hlink
      cases hlink
      refine ⟨line, rest, rfl, hparsed, hstands, ?_⟩
      -- A line that waits would have been counted.
      rcases hstands.slot_cases with ⟨hslot, -⟩ | ⟨next, more, -, -, hcount, -⟩
      · exact hslot
      · omega

/-- With sources of a fixed width a link is the record that the lines start with, and the next
record waits. -/
theorem StandsAt.record_of_readLink (h : cursor.StandsAt count lines)
    (hread : cursor.readLink (.fixedWidth width) = .ok (some link) cursor') :
    ∃ (record : RecordLines) (front back : List Bytes), lines = front ++ back ∧
      front.map Utf8.decode = record.lines ∧ record.Fits width ∧ record.link = link ∧
      cursor'.WaitsAt (count + front.length) back ∧
      ∀ line ∈ (back.map Utf8.decode).head?, BarAt width line := by
  cases lines with
  | nil =>
    rw [h.readLink_nil] at hread
    cases hread
  | cons line rest =>
    by_cases hbar : BarAt width (Utf8.decode line)
    · obtain ⟨records, hrecords, hfits⟩ :=
        RecordLines.exists_records_of_barAt hbar (rest.map Utf8.decode)
      cases records with
      | nil => cases hrecords
      | cons record records =>
        rw [List.forall_mem_cons] at hfits
        rw [List.flatMap_cons, ← List.map_cons] at hrecords
        obtain ⟨front, back, hsplit, hfront, hback⟩ := List.map_eq_append_iff.mp hrecords.symm
        have hnext : ∀ line ∈ (back.map Utf8.decode).head?, BarAt width line := by
          intro line hline
          rw [hback] at hline
          exact RecordLines.barAt_head? hfits.2 hline
        rw [hsplit] at h
        obtain ⟨cursor₁, hwaits, hlink⟩ := h.readLink_record hfits.1 hfront hnext
        rw [hread] at hlink
        cases hlink
        exact ⟨record, front, back, hsplit, hfront, hfits.1, rfl, hwaits, hnext⟩
    · obtain ⟨cursor₁, hrefused, -⟩ := h.readLink_misplaced hbar
      rw [hread] at hrefused
      cases hrefused

/-- Behind a link the cursor stands behind more lines of the same dump. -/
theorem StandsAt.exists_of_readLink (h : cursor.StandsAt count (dump.drop count))
    (hread : cursor.readLink dialect = .ok (some link) cursor') :
    ∃ count', cursor'.StandsAt count' (dump.drop count') := by
  have hparsed : ∀ parse, dialect.ofLine = some parse →
      ∃ count', cursor'.StandsAt count' (dump.drop count') := by
    intro parse hparse
    obtain ⟨line, rest, hsplit, -, hstands, -⟩ := h.line_of_readLink hparse hread
    rw [← drop_add_length (show _ = [line] ++ rest from hsplit)] at hstands
    exact ⟨_, hstands⟩
  cases dialect with
  | rfc => exact hparsed _ rfl
  | variableWidth => exact hparsed _ rfl
  | fixedWidth width =>
    obtain ⟨record, front, back, hsplit, -, -, -, hwaits, -⟩ := h.record_of_readLink hread
    rw [← drop_add_length hsplit] at hwaits
    exact ⟨_, hwaits.standsAt⟩

end Cursor

/-! ## Readers of a dump -/

namespace Reader

/-- What a reader of a dump in chunks may have come to: nothing has been read, or it stands behind
some of the lines, or it is done. -/
inductive Placed (dialect : Dialect) (source : Source) : Reader → Prop
  | fresh : Placed dialect source (ofSource dialect source)
  | behind {cursor : Cursor} {fields : List MetaField} {count : Nat}
      (h : cursor.StandsAt count ((dumpLines source.bytes).drop count)) :
      Placed dialect source ⟨cursor, dialect, fields, .links⟩
  | done {reader : Reader} (h : reader.phase = .done) : Placed dialect source reader

variable {reader : Reader} {source : Source} {dialect : Dialect} {c : Call} {link : Link}

/-- Behind the header there are the lines that were not read for it, unless the reader is done. -/
theorem Placed.readFields (h : reader.Placed dialect source) (hchunks : source.AllChunks) :
    (∃ cursor fields count, reader.readFields = .ok fields ⟨cursor, dialect, fields, .links⟩ ∧
        Cursor.StandsAt cursor count ((dumpLines source.bytes).drop count)) ∨
      (stateAfter reader.readFields).phase = .done := by
  cases h with
  | fresh =>
    cases hscan : (Cursor.scanHeader { source }).2 with
    | ok value cursor =>
      exact .inl ⟨cursor, _, _, readFields_of_scanHeader_eq_ok dialect hscan,
        Cursor.standsAt_of_scanHeader_eq_ok hchunks hscan⟩
    | error cause cursor =>
      rw [readFields_of_scanHeader_eq_error dialect hscan]
      exact .inr rfl
  | behind hstands => exact .inl ⟨_, _, _, rfl, hstands⟩
  | done hdone =>
    rw [Reader.readFields, hdone]
    exact .inr hdone

/-- A link is read by a cursor that stands between two lines. -/
theorem Placed.exists_readLink_eq (h : reader.Placed dialect source) (hchunks : source.AllChunks)
    (hlink : (reader.call c).1 = .link link) :
    ∃ cursor cursor' fields count, (reader.call c).2 = ⟨cursor', dialect, fields, .links⟩ ∧
      cursor.readLink dialect = .ok (some link) cursor' ∧
      Cursor.StandsAt cursor count ((dumpLines source.bytes).drop count) := by
  have hread := readLink_of_call_eq_link hlink
  rcases h.readFields hchunks with ⟨cursor, fields, count, hfields, hstands⟩ | hdone
  · rw [readLink_of_readFields_eq_ok hfields rfl, readLink_eq] at hread
    split at hread
    next hcursor =>
      obtain ⟨hsome, hnext⟩ := EStateM.Result.ok.inj hread
      cases hsome
      exact ⟨cursor, _, fields, count, hnext.symm, hcursor, hstands⟩
    · cases hread
    · cases hread
  · rw [readLink] at hread
    split at hread
    · cases hread
    next hfields =>
      rw [hfields, stateAfter] at hdone
      rw [hdone] at hread
      cases hread

/-- Asking for the fields reads no further than the header. -/
theorem Placed.call_fields (h : reader.Placed dialect source) (hchunks : source.AllChunks) :
    (reader.call .fields).2.Placed dialect source := by
  rw [call_fields_snd]
  rcases h.readFields hchunks with ⟨cursor, fields, count, hfields, hstands⟩ | hdone
  · rw [hfields]
    exact .behind hstands
  · exact .done hdone

/-- Behind a link the reader stands behind the lines of that link, and otherwise it is done. -/
theorem Placed.call_link (h : reader.Placed dialect source) (hchunks : source.AllChunks) :
    (reader.call .link).2.Placed dialect source := by
  have hphase := reader.phase_readLink
  rcases hread : reader.readLink with ⟨_ | link, reader'⟩ | ⟨e, reader'⟩
  · rw [hread] at hphase
    rw [call, hread]
    exact .done hphase
  · have hreply : (reader.call .link).1 = .link link := by
      rw [call, hread]
      rfl
    obtain ⟨cursor, cursor', fields, count, hnext, hlink, hstands⟩ :=
      h.exists_readLink_eq hchunks hreply
    obtain ⟨count', hstands'⟩ := hstands.exists_of_readLink hlink
    rw [hnext]
    exact .behind hstands'
  · rw [hread] at hphase
    rw [call, hread]
    exact .done hphase

/-- The step of a session. -/
theorem Placed.call (h : reader.Placed dialect source) (hchunks : source.AllChunks) (c : Call) :
    (reader.call c).2.Placed dialect source := by
  cases c with
  | fields => exact h.call_fields hchunks
  | link => exact h.call_link hchunks
  | item =>
    rw [call_item]
    exact h.call_link hchunks

/-- The run of a session. -/
theorem Placed.transcript (h : reader.Placed dialect source) (hchunks : source.AllChunks)
    (calls : List Call) : (reader.transcript calls).2.Placed dialect source := by
  induction calls generalizing reader with
  | nil => exact h
  | cons c calls ih => exact ih (h.call hchunks c)

end Reader

end LinkDump
