import LinkDump.Proofs.HeaderLines
import LinkDump.Proofs.ReadingOn
import LinkDump.StreamDecoder

/-! # Runs of a stream decoder
A decoder that takes turns keeps in its own fields what a reader keeps in a cursor, and goes on
from points of suspension where a cursor loops. `StreamDecoder.ofReader` is the decoder in the state
of a reader. From such a state a run of turns gives what the loop gives and ends in the state of the
reader after it, whatever the source does on the way: there is one statement of this kind for each
operation of a cursor. -/

namespace LinkDump

/-- A result with its state seen as another one. -/
def onState {ε σ τ α : Type} (f : σ → τ) : EStateM.Result ε σ α → EStateM.Result ε τ α
  | .ok value state => .ok value (f state)
  | .error e state => .error e (f state)

@[simp] theorem onState_ok {ε σ τ α : Type} (f : σ → τ) (value : α) (state : σ) :
    onState f (.ok value state : EStateM.Result ε σ α) = .ok value (f state) := rfl

@[simp] theorem onState_error {ε σ τ α : Type} (f : σ → τ) (e : ε) (state : σ) :
    onState f (.error e state : EStateM.Result ε σ α) = .error e (f state) := rfl

namespace Source

/-! ## Loops of looks -/

/-- Reading a line is a loop: look, consume up to the newline or all that was seen, and look again
unless the newline was there or nothing was. -/
theorem readLine_eq (source : Source) :
    source.readLine = match source.look with
      | .error reason source => .error reason source
      | .ok bytes source =>
        if bytes.isEmpty then .ok [] source
        else if newline ∈ bytes then
          .ok (firstLine bytes) (source.consume (firstLine bytes).length)
        else match (source.consume bytes.length).readLine with
          | .ok line source => .ok (bytes ++ line) source
          | .error reason source => .error reason source := by
  cases source with
  | nil => rfl
  | cons piece source =>
    cases piece with
    | lull => rfl
    | failure reason => rfl
    | chunk b rest =>
      -- A chunk stays in front of the source until all of it has been consumed.
      have hall : consume (b :: rest).length (.chunk b rest :: source) = source := by
        rw [consume, List.drop_length]
        rfl
      have hline : consume (firstLine (b :: rest)).length (.chunk b rest :: source) =
          push (afterFirstLine (b :: rest)) source := by
        rw [consume]
        conv => lhs; arg 1; arg 2; rw [← firstLine_append_afterFirstLine (b :: rest)]
        rw [List.drop_left]
      simp only [readLine, look, List.isEmpty_cons, hall, hline]
      rfl

/-- A mark that is complete is not looked for. -/
theorem matchMark_full (source : Source) :
    source.matchMark byteOrderMark.length = .ok byteOrderMark.length source := by
  cases source with
  | nil => rfl
  | cons piece source => cases piece <;> rfl

/-- Matching a mark is a loop: look, consume what continues the mark, and look again unless it is
complete or does not go on. -/
theorem matchMark_eq {matched : Nat} (hm : matched < byteOrderMark.length) (source : Source) :
    source.matchMark matched = match source.look with
      | .error reason source => .error reason source
      | .ok bytes source =>
        match if bytes.isEmpty then none else continueMark matched bytes with
        | none => .ok matched source
        | some count => (source.consume count).matchMark (matched + count) := by
  cases source with
  | nil => rfl
  | cons piece source =>
    cases piece with
    | lull => simp only [matchMark, if_pos hm, look, List.isEmpty_nil, if_true]
    | failure reason => simp only [matchMark, if_pos hm, look]
    | chunk b rest =>
      simp only [matchMark, if_pos hm, look, List.isEmpty_cons, Bool.false_eq_true, if_false]
      cases hcontinue : continueMark matched (b :: rest) with
      | none => rfl
      | some count =>
        obtain ⟨-, hcount, -⟩ := continueMark_eq_some_iff.mp hcontinue
        simp only [consume]
        split
        next hshort =>
          have hfull : matched + count = byteOrderMark.length := by omega
          rw [hfull, matchMark_full]
        next hall =>
          rw [List.drop_of_length_le (by omega)]
          rfl

/-- What continues a mark is at least one of its bytes, and none too many. -/
theorem pos_of_continueMark {matched count : Nat} {bytes : Bytes}
    (hm : matched < byteOrderMark.length)
    (h : (if bytes.isEmpty then none else continueMark matched bytes) = some count) :
    0 < count ∧ matched + count ≤ byteOrderMark.length := by
  by_cases hempty : bytes.isEmpty
  · rw [if_pos hempty] at h
    cases h
  · rw [if_neg hempty] at h
    obtain ⟨-, hcount, -⟩ := continueMark_eq_some_iff.mp h
    have hpos := continueMark_pos hm (mt List.isEmpty_iff.mpr hempty) h
    omega

end Source

/-- A line that is refused leaves the scan as it was. -/
theorem Scanner.eq_of_feed_eq_error {scanner scanner' : Scanner} {raw : Text} {e : LineError}
    (h : scanner.feed raw = (.error e, scanner')) : scanner' = scanner := by
  simp only [feed] at h
  repeat' split at h
  all_goals cases h
  rfl

/-- The line that ends the header leaves the scan as it was. -/
theorem Scanner.eq_of_feed_eq_done {scanner scanner' : Scanner} {raw line : Text}
    (h : scanner.feed raw = (.ok (.done line), scanner')) : scanner' = scanner := by
  simp only [feed] at h
  repeat' split at h
  all_goals cases h
  all_goals rfl

namespace StreamDecoder

/-- The decoder in the state of a reader. -/
def ofReader (reader : Reader) : StreamDecoder where
  source := reader.cursor.source
  dialect := reader.dialect
  slot := reader.cursor.slot
  line := reader.cursor.line
  fields := reader.fields
  phase := reader.phase

@[simp] theorem fields_ofReader (reader : Reader) : (ofReader reader).fields = reader.fields := rfl

@[simp] theorem dialect_ofReader (reader : Reader) :
    (ofReader reader).dialect = reader.dialect := rfl

@[simp] theorem phase_ofReader (reader : Reader) : (ofReader reader).phase = reader.phase := rfl

/-- A decoder and a reader of the same source start in the same state. -/
theorem ofReader_ofSource (dialect : Dialect) (source : Source) :
    ofReader (Reader.ofSource dialect source) = ofSource dialect source := rfl

variable (cursor : Cursor) (dialect : Dialect) (fields : List MetaField) (phase : Phase)

/-- A line is received as it is read, from the slot or from the source. -/
theorem receiveLine_ofReader :
    (ofReader ⟨cursor, dialect, fields, phase⟩).receiveLine =
      onState (fun cursor => ofReader ⟨cursor, dialect, fields, phase⟩) cursor.nextRawLine := by
  obtain ⟨source, ⟨held⟩, line⟩ := cursor
  cases held with
  | some text => rfl
  | none =>
    simp only [receiveLine, ofReader, Cursor.nextRawLine, Slot.take]
    cases source.readLine with
    | error reason source => rfl
    | ok bytes source => cases bytes <;> rfl

/-- A line is kept as it is handed back, or refused because another one waits. -/
theorem keepLine_ofReader (text : Text) :
    (ofReader ⟨cursor, dialect, fields, phase⟩).keepLine text =
      onState (fun cursor => ofReader ⟨cursor, dialect, fields, phase⟩) (cursor.pushBack text) := by
  simp only [keepLine, ofReader, Cursor.pushBack]
  cases cursor.slot.put text with
  | none => rfl
  | some slot => rfl

/-! ## The header -/

/-- A run is its first turn and the run from the point where that one is suspended. -/
theorem runHeader_eq (decoder : StreamDecoder) (point : HeaderPoint) :
    decoder.runHeader point = match decoder.headerTurn point with
      | .answered answer => answer
      | .suspended point decoder => decoder.runHeader point := by
  rw [runHeader]
  split
  next hturn => rw [hturn]
  next hturn => rw [hturn]

/-- What a decoder makes of a scan: its fields are kept, also if it failed. -/
def scanned (scan : Scanner × Cursor.Answer Unit) : EStateM.Result LineError StreamDecoder Unit :=
  onState (fun cursor => ofReader ⟨cursor, dialect, scan.1.fields, phase⟩) scan.2

/-- The lines of a header are fed to the scan in the same order, up to the same end. -/
theorem runHeader_nextLine (scanner : Scanner) :
    runHeader (ofReader ⟨cursor, dialect, scanner.fields, phase⟩) (.nextLine scanner.part) =
      scanned dialect phase (cursor.scanLines scanner) := by
  fun_induction Cursor.scanLines scanner cursor with
  | case1 scanner cursor e cursor₁ hread =>
    rw [runHeader_eq, headerTurn, receiveLine_ofReader, hread]
    rfl
  | case2 scanner cursor cursor₁ hread =>
    rw [runHeader_eq, headerTurn, receiveLine_ofReader, hread]
    rfl
  | case3 scanner cursor raw cursor₁ hread e scanner₁ hfeed =>
    -- The line is refused, and the fields stay as they were before it.
    have hsame := Scanner.eq_of_feed_eq_error hfeed
    rw [runHeader_eq, headerTurn, receiveLine_ofReader, hread]
    simp only [onState_ok, fields_ofReader, hfeed, hsame, scanned, onState_error]
  | case4 scanner cursor raw cursor₁ hread scanner₁ hfeed ih =>
    -- The header goes on, and so does the run, from the scan after this line.
    rw [runHeader_eq, headerTurn, receiveLine_ofReader, hread]
    simp only [onState_ok, fields_ofReader, hfeed]
    exact ih
  | case5 scanner cursor raw cursor₁ hread line scanner₁ hfeed =>
    -- The line is kept, which the slot may refuse.
    have hsame := Scanner.eq_of_feed_eq_done hfeed
    rw [runHeader_eq, headerTurn, receiveLine_ofReader, hread]
    simp only [onState_ok, fields_ofReader, hfeed, hsame, keepLine_ofReader, scanned]

/-- Once the mark has been dealt with, both look at the first byte, of a line that waits or is
unread. -/
theorem runHeader_firstByte :
    runHeader (ofReader ⟨cursor, dialect, [], phase⟩) .firstByte =
      scanned dialect phase (cursor.scanUnmarked {}) := by
  have hlines (cursor : Cursor) :
      runHeader (ofReader ⟨cursor, dialect, [], phase⟩) (.nextLine .fields) =
        scanned dialect phase (cursor.scanLines {}) :=
    runHeader_nextLine cursor dialect phase {}
  obtain ⟨source, ⟨held⟩, line⟩ := cursor
  rw [runHeader_eq, headerTurn, Cursor.scanUnmarked, Cursor.peekByte]
  cases held with
  | some text =>
    simp only [ofReader]
    by_cases hfirst : (Utf8.encode text).head? = some 0x23
    · rw [if_pos hfirst, if_pos hfirst]
      exact hlines ⟨source, ⟨some text⟩, line⟩
    · rw [if_neg hfirst, if_neg hfirst]
      rfl
  | none =>
    simp only [ofReader]
    cases source.look with
    | error reason source => rfl
    | ok bytes source =>
      simp only
      by_cases hfirst : bytes.head? = some 0x23
      · rw [if_pos hfirst, if_pos hfirst]
        exact hlines ⟨source, ⟨none⟩, line⟩
      · rw [if_neg hfirst, if_neg hfirst]
        rfl

/-- The rest of a line that is no mark after all is read and kept in the same way. -/
theorem runHeader_brokenMark (matched : Nat) :
    runHeader (ofReader ⟨cursor, dialect, [], phase⟩) (.brokenMark matched) =
      match cursor.restoreLine (byteOrderMark.take matched) with
      | .error e cursor => .error e (ofReader ⟨cursor, dialect, [], phase⟩)
      | .ok () cursor => scanned dialect phase (cursor.scanUnmarked {}) := by
  rw [runHeader_eq, headerTurn, Cursor.restoreLine]
  simp only [ofReader]
  cases cursor.source.readLine with
  | error reason source => rfl
  | ok rest source =>
    have hkeep := keepLine_ofReader { cursor with source, line := cursor.line + 1 } dialect [] phase
      (Utf8.decode (byteOrderMark.take matched ++ rest))
    simp only [ofReader] at hkeep
    simp only [hkeep]
    cases Cursor.pushBack (Utf8.decode (byteOrderMark.take matched ++ rest))
        { cursor with source, line := cursor.line + 1 } with
    | error e cursor => rfl
    | ok _ cursor => exact runHeader_firstByte cursor dialect phase

/-- Where a scan goes on once the search for a mark has ended with `count` of its bytes. -/
def afterMark (count : Nat) : HeaderPoint :=
  if count = byteOrderMark.length then .firstByte else if count = 0 then .firstByte
  else .brokenMark count

/-- The search for a mark takes as many turns as the source takes looks, and ends with the same part
of one. -/
theorem runHeader_mark {matched : Nat} (hm : matched < byteOrderMark.length) :
    runHeader (ofReader ⟨cursor, dialect, [], phase⟩) (.mark matched) =
      match cursor.source.matchMark matched with
      | .error reason source =>
        .error (.input reason) (ofReader ⟨{ cursor with source }, dialect, [], phase⟩)
      | .ok count source =>
        runHeader (ofReader ⟨{ cursor with source }, dialect, [], phase⟩) (afterMark count) := by
  obtain ⟨source, slot, line⟩ := cursor
  induction hleft : byteOrderMark.length - matched using Nat.strongRecOn
    generalizing matched source with
  | _ left ih =>
    rw [runHeader_eq, headerTurn, Source.matchMark_eq hm]
    simp only [ofReader]
    cases source.look with
    | error reason source => rfl
    | ok bytes source =>
      simp only
      cases hcontinue : if bytes.isEmpty then none else continueMark matched bytes with
      | none =>
        -- The search is over, with the part of the mark that it had before this look.
        simp only [afterMark, if_neg (Nat.ne_of_lt hm)]
        by_cases hzero : matched = 0
        · rw [if_pos hzero, if_pos hzero]
        · rw [if_neg hzero, if_neg hzero]
      | some count =>
        obtain ⟨hpos, hle⟩ := Source.pos_of_continueMark hm hcontinue
        simp only
        by_cases hfull : matched + count = byteOrderMark.length
        · rw [if_pos hfull, hfull, Source.matchMark_full]
          rfl
        · -- The look has brought the mark nearer to its end, and there is another one.
          rw [if_neg hfull]
          exact ih _ (by omega) (by omega) _ rfl

/-- A scan of the header, from its first point on, is the scan that a cursor makes. -/
theorem runHeader_start :
    runHeader (ofReader ⟨cursor, dialect, [], phase⟩)
        (if (ofReader ⟨cursor, dialect, [], phase⟩).slot.isEmpty then .mark 0 else .firstByte) =
      scanned dialect phase cursor.scanHeader := by
  show runHeader _ (if cursor.slot.isEmpty then .mark 0 else .firstByte) = _
  rw [Cursor.scanHeader_eq_scanUnmarked, Cursor.consumeMark]
  by_cases hslot : cursor.slot.isEmpty
  · rw [if_pos hslot, if_pos hslot, runHeader_mark cursor dialect phase (by decide)]
    cases cursor.source.matchMark 0 with
    | error reason source => rfl
    | ok count source =>
      simp only [afterMark]
      by_cases hfull : count = byteOrderMark.length
      · rw [if_pos hfull, if_pos hfull, runHeader_firstByte]
      · rw [if_neg hfull, if_neg hfull]
        by_cases hzero : count = 0
        · rw [if_pos hzero, if_pos hzero, runHeader_firstByte]
        · rw [if_neg hzero, if_neg hzero, runHeader_brokenMark]
          cases Cursor.restoreLine (byteOrderMark.take count) { cursor with source } with
          | error e cursor => rfl
          | ok _ cursor => rfl
  · rw [if_neg hslot, if_neg hslot, runHeader_firstByte]

/-! ## Links -/

/-- A run is its first turn and the run from the point where that one is suspended. -/
theorem runLink_eq (decoder : StreamDecoder) (point : LinkPoint) :
    decoder.runLink point = match decoder.linkTurn point with
      | .answered answer => answer
      | .suspended point decoder => decoder.runLink point := by
  rw [runLink]
  split
  next hturn => rw [hturn]
  next hturn => rw [hturn]

/-- A record is completed with the same lines. -/
theorem runLink_nextLine (record : FixedRecord) :
    runLink (ofReader ⟨cursor, dialect, fields, phase⟩) (.nextLine record) =
      match cursor.absorbLines record with
      | .ok link cursor => .ok (some link) (ofReader ⟨cursor, dialect, fields, phase⟩)
      | .error e cursor => .error e (ofReader ⟨cursor, dialect, fields, phase⟩) := by
  fun_induction Cursor.absorbLines record cursor with
  | case1 record cursor e cursor₁ hread =>
    rw [runLink_eq, linkTurn, receiveLine_ofReader, hread]
    rfl
  | case2 record cursor cursor₁ hread =>
    rw [runLink_eq, linkTurn, receiveLine_ofReader, hread]
    rfl
  | case3 record cursor raw cursor₁ hread record₁ habsorb ih =>
    -- The line continues the record, and the run goes on from the longer one.
    rw [runLink_eq, linkTurn, receiveLine_ofReader, hread]
    simp only [onState_ok, habsorb]
    exact ih
  | case4 record cursor raw cursor₁ hread next record₁ habsorb cursor₂ hpush =>
    rw [runLink_eq, linkTurn, receiveLine_ofReader, hread]
    simp only [onState_ok, habsorb, keepLine_ofReader, hpush]
  | case5 record cursor raw cursor₁ hread next record₁ habsorb e cursor₂ hpush =>
    rw [runLink_eq, linkTurn, receiveLine_ofReader, hread]
    simp only [onState_ok, habsorb, keepLine_ofReader, hpush, onState_error]

/-- A link is read from the same lines, in every dialect. -/
theorem runLink_firstLine :
    runLink (ofReader ⟨cursor, dialect, fields, phase⟩) .firstLine =
      onState (fun cursor => ofReader ⟨cursor, dialect, fields, phase⟩)
        (cursor.readLink dialect) := by
  rw [runLink_eq, linkTurn, receiveLine_ofReader]
  -- Both begin with the same line, and only a fixed width needs more turns for more lines.
  cases dialect with
  | rfc =>
    simp only [Cursor.readLink, Cursor.readBars, Cursor.nextLine]
    cases cursor.nextRawLine with
    | error e cursor => rfl
    | ok raw cursor =>
      cases raw with
      | none => rfl
      | some raw =>
        simp only [onState_ok, dialect_ofReader, Option.map_some, Cursor.parseLine]
        cases Link.ofBars (dropLineBreak raw) <;> rfl
  | variableWidth =>
    simp only [Cursor.readLink, Cursor.readFirstBar]
    cases cursor.nextRawLine with
    | error e cursor => rfl
    | ok raw cursor =>
      cases raw with
      | none => rfl
      | some raw =>
        simp only [onState_ok, dialect_ofReader, Cursor.parseLine]
        cases Link.ofFirstBar raw <;> rfl
  | fixedWidth width =>
    simp only [Cursor.readLink, Cursor.readFixed]
    cases cursor.nextRawLine with
    | error e cursor => rfl
    | ok raw cursor =>
      cases raw with
      | none => rfl
      | some raw =>
        simp only [onState_ok, dialect_ofReader]
        cases FixedRecord.start width raw with
        | error e => rfl
        | ok record =>
          simp only [runLink_nextLine]
          cases cursor.absorbLines record <;> rfl

end StreamDecoder

end LinkDump
