import LinkDump.Proofs.Position

/-! # What reading lines gives
A source of any kind is known by what reading lines from it gives, one reading after another, until
it is used up: a line, nothing where a lull is met, or a failure, which loses the bytes read before
it. `Source.readings` is that list, put together from the back, byte by byte, so that bytes have no
memory of the chunk they came in. `Cursor.Reads` is the invariant of a cursor over such a source,
with the line that may wait in the slot as its first reading. It is wider than `Cursor.StandsAt`,
which speaks of chunks only. -/

namespace LinkDump

/-- What reading a line once gives: a line, nothing at a lull, or a failure. -/
abbrev Reading := Except Text Bytes

/-- A byte in front of some readings ends a line, or is joined to the line that is read next. It is
lost if that line fails. -/
def prependByte (b : UInt8) (readings : List Reading) : List Reading :=
  if b = newline then .ok [b] :: readings
  else match readings with
    | [] => [.ok [b]]
    | .ok line :: readings => .ok (b :: line) :: readings
    | .error reason :: readings => .error reason :: readings

/-- A newline in front is a line of its own. -/
theorem prependByte_newline (readings : List Reading) :
    prependByte newline readings = .ok [newline] :: readings := if_pos rfl

/-- Any other byte in front is joined to the line that is read next, or lost with it. -/
theorem prependByte_of_ne {b : UInt8} (hb : b ≠ newline) (readings : List Reading) :
    prependByte b readings = match readings with
      | [] => [.ok [b]]
      | .ok line :: readings => .ok (b :: line) :: readings
      | .error reason :: readings => .error reason :: readings := if_neg hb

/-- Bytes in front of some readings. -/
def prepend (bytes : Bytes) (readings : List Reading) : List Reading :=
  bytes.foldr prependByte readings

@[simp] theorem prepend_nil (readings : List Reading) : prepend [] readings = readings := rfl

@[simp] theorem prepend_cons (b : UInt8) (bytes : Bytes) (readings : List Reading) :
    prepend (b :: bytes) readings = prependByte b (prepend bytes readings) := rfl

/-- Bytes in two parts are put in front one part after the other. -/
@[simp] theorem prepend_append (front back : Bytes) (readings : List Reading) :
    prepend (front ++ back) readings = prepend front (prepend back readings) :=
  List.foldr_append

/-- Bytes with a newline give their first line, whatever follows them. -/
theorem prepend_of_mem {bytes : Bytes} (h : newline ∈ bytes) (readings : List Reading) :
    prepend bytes readings =
      .ok (firstLine bytes) :: prepend (afterFirstLine bytes) readings := by
  induction bytes with
  | nil => cases h
  | cons b bytes ih =>
    rw [prepend_cons, firstLine, afterFirstLine]
    by_cases hb : b = newline
    · rw [if_pos hb, if_pos hb, hb, prependByte_newline]
    · have hmem : newline ∈ bytes := (List.mem_cons.mp h).resolve_left (Ne.symm hb)
      rw [if_neg hb, if_neg hb, ih hmem, prependByte_of_ne hb]

/-- Bytes without a newline are joined to the line behind them. -/
theorem prepend_ok_of_not_mem {bytes : Bytes} (h : newline ∉ bytes) (line : Bytes)
    (readings : List Reading) :
    prepend bytes (.ok line :: readings) = .ok (bytes ++ line) :: readings := by
  induction bytes with
  | nil => rfl
  | cons b bytes ih =>
    rw [List.mem_cons, not_or] at h
    rw [prepend_cons, ih h.2, prependByte_of_ne (Ne.symm h.1), List.cons_append]

/-- Bytes without a newline that are the last ones are a line of their own. -/
theorem prepend_nil_of_not_mem {bytes : Bytes} (hne : bytes ≠ []) (h : newline ∉ bytes) :
    prepend bytes [] = [.ok bytes] := by
  induction bytes with
  | nil => exact absurd rfl hne
  | cons b bytes ih =>
    rw [List.mem_cons, not_or] at h
    rw [prepend_cons]
    cases bytes with
    | nil => rw [prepend_nil, prependByte_of_ne (Ne.symm h.1)]
    | cons d bytes => rw [ih (List.cons_ne_nil d bytes) h.2, prependByte_of_ne (Ne.symm h.1)]

/-- Bytes without a newline are lost with the line behind them. -/
theorem prepend_error_of_not_mem {bytes : Bytes} (h : newline ∉ bytes) (reason : Text)
    (readings : List Reading) :
    prepend bytes (.error reason :: readings) = .error reason :: readings := by
  induction bytes with
  | nil => rfl
  | cons b bytes ih =>
    rw [List.mem_cons, not_or] at h
    rw [prepend_cons, ih h.2, prependByte_of_ne (Ne.symm h.1)]

/-- Bytes with nothing behind them are read as their physical lines. -/
theorem prepend_nil_eq (bytes : Bytes) : prepend bytes [] = (physicalLines bytes).map .ok := by
  induction bytes with
  | nil => rfl
  | cons b bytes ih =>
    rw [prepend_cons, ih, physicalLines]
    by_cases hb : b = newline
    · rw [if_pos hb, hb, prependByte_newline, List.map_cons]
    · rw [if_neg hb, prependByte_of_ne hb]
      cases physicalLines bytes <;> rfl

/-- With bytes in front, what is read first is a line that starts with the first of them, or it
fails. -/
theorem prepend_cons_cases (b : UInt8) (bytes : Bytes) (readings : List Reading) :
    (∃ line rest, prepend (b :: bytes) readings = .ok (b :: line) :: rest) ∨
      ∃ reason rest, prepend (b :: bytes) readings = .error reason :: rest := by
  rw [prepend_cons]
  by_cases hb : b = newline
  · rw [hb, prependByte_newline]
    exact .inl ⟨[], _, rfl⟩
  · rw [prependByte_of_ne hb]
    rcases prepend bytes readings with _ | ⟨reason | line, rest⟩
    · exact .inl ⟨[], [], rfl⟩
    · exact .inr ⟨reason, rest, rfl⟩
    · exact .inl ⟨line, rest, rfl⟩

/-- With a byte in front there is something to be read. -/
theorem prepend_cons_ne_nil (b : UInt8) (bytes : Bytes) (readings : List Reading) :
    prepend (b :: bytes) readings ≠ [] := by
  rcases prepend_cons_cases b bytes readings with ⟨_, _, hok⟩ | ⟨_, _, herror⟩
  · rw [hok]
    exact List.cons_ne_nil _ _
  · rw [herror]
    exact List.cons_ne_nil _ _

namespace Source

/-- What reading lines from a source gives, until it is used up. -/
def readings : Source → List Reading
  | [] => []
  | .chunk b rest :: source => prepend (b :: rest) (readings source)
  | .failure reason :: source => .error reason :: readings source
  | .lull :: source => .ok [] :: readings source

@[simp] theorem readings_nil : readings [] = [] := rfl

@[simp] theorem readings_chunk (b : UInt8) (rest : Bytes) (source : Source) :
    readings (.chunk b rest :: source) = prepend (b :: rest) (readings source) := rfl

/-- A failure is read at once. -/
@[simp] theorem readings_failure (reason : Text) (source : Source) :
    readings (.failure reason :: source) = .error reason :: readings source := rfl

/-- A lull is read as a line of no bytes. -/
@[simp] theorem readings_lull (source : Source) :
    readings (.lull :: source) = .ok [] :: readings source := rfl

/-- Bytes that are put in front of a source are in front of what is read. -/
@[simp] theorem readings_push (bs : Bytes) (source : Source) :
    readings (push bs source) = prepend bs (readings source) := by
  cases bs <;> rfl

/-- Chunks in front of a source are so many bytes, however they are cut. -/
theorem AllChunks.readings_append {chunks : Source} (h : chunks.AllChunks) (source : Source) :
    readings (chunks ++ source) = prepend chunks.bytes (readings source) := by
  induction chunks with
  | nil => rfl
  | cons piece chunks ih =>
    obtain ⟨b, rest, rfl⟩ := h piece List.mem_cons_self
    rw [List.cons_append, readings_chunk, bytes_chunk, prepend_append, ih (allChunks_chunk.mp h)]

/-- Nothing is to be read exactly at the end of a source. -/
theorem readings_eq_nil_iff {source : Source} : source.readings = [] ↔ source = [] := by
  constructor
  · intro h
    rcases source with _ | ⟨⟨b, rest⟩ | reason | _, source⟩
    · rfl
    · exact absurd h (prepend_cons_ne_nil b rest (readings source))
    · cases h
    · cases h
  · rintro rfl
    rfl

/-- Only a lull reads as a line without bytes. -/
theorem eq_lull_of_readings {source : Source} {rest : List Reading}
    (h : source.readings = .ok [] :: rest) :
    ∃ source' : Source, source = .lull :: source' ∧ source'.readings = rest := by
  rcases source with _ | ⟨⟨b, bytes⟩ | reason | _, source⟩
  · cases h
  · rcases prepend_cons_cases b bytes (readings source) with ⟨_, _, hok⟩ | ⟨_, _, herror⟩
    · rw [readings_chunk, hok] at h
      cases h
    · rw [readings_chunk, herror] at h
      cases h
  · cases h
  · cases h
    exact ⟨source, rfl, rfl⟩

/-- Reading a line takes the first reading off a source; from one that is used up it takes nothing.
-/
theorem readLine_cases (source : Source) :
    (source = [] ∧ source.readLine = .ok [] []) ∨
    (∃ line source', source.readings = .ok line :: source'.readings ∧
      source.readLine = .ok line source') ∨
    (∃ reason source', source.readings = .error reason :: source'.readings ∧
      source.readLine = .error reason source') := by
  induction source with
  | nil => exact .inl ⟨rfl, rfl⟩
  | cons piece source ih =>
    cases piece with
    | lull => exact .inr (.inl ⟨[], source, rfl, rfl⟩)
    | failure reason => exact .inr (.inr ⟨reason, source, rfl, rfl⟩)
    | chunk b rest =>
      rw [readings_chunk, readLine]
      by_cases hmem : newline ∈ b :: rest
      · -- The line ends in this chunk.
        refine .inr (.inl ⟨firstLine (b :: rest), push (afterFirstLine (b :: rest)) source, ?_, ?_⟩)
        · rw [prepend_of_mem hmem, readings_push]
        · rw [if_pos hmem]
      · -- The line goes on with the next reading, or fails with it.
        rw [if_neg hmem]
        rcases ih with ⟨rfl, hread⟩ | ⟨line, source', hok, hread⟩ | ⟨reason, source', herror, hread⟩
        · refine .inr (.inl ⟨b :: rest ++ [], [], ?_, by rw [hread]⟩)
          rw [readings_nil, prepend_nil_of_not_mem (List.cons_ne_nil b rest) hmem, List.append_nil]
        · refine .inr (.inl ⟨b :: rest ++ line, source', ?_, by rw [hread]⟩)
          rw [hok, prepend_ok_of_not_mem hmem]
        · refine .inr (.inr ⟨reason, source', ?_, by rw [hread]⟩)
          rw [herror, prepend_error_of_not_mem hmem]

end Source

/-! ## Lines that are complete -/

/-- The part of some bytes up to and including their last newline. -/
def completeLines : Bytes → Bytes
  | [] => []
  | b :: bytes => if newline ∈ b :: bytes then b :: completeLines bytes else []

/-- Bytes without a newline have no complete line. -/
theorem completeLines_of_not_mem {bytes : Bytes} (h : newline ∉ bytes) :
    completeLines bytes = [] := by
  cases bytes with
  | nil => rfl
  | cons b bytes => rw [completeLines, if_neg h]

/-- A byte in front of a newline belongs to the complete lines. -/
theorem completeLines_cons_of_mem {b : UInt8} {bytes : Bytes} (h : newline ∈ b :: bytes) :
    completeLines (b :: bytes) = b :: completeLines bytes := by
  rw [completeLines, if_pos h]

/-- Every newline is in the complete lines. -/
theorem mem_completeLines_iff {bytes : Bytes} :
    newline ∈ completeLines bytes ↔ newline ∈ bytes := by
  induction bytes with
  | nil => rfl
  | cons b bytes ih =>
    by_cases h : newline ∈ b :: bytes
    · rw [completeLines_cons_of_mem h, List.mem_cons, List.mem_cons, ih]
    · simp only [completeLines_of_not_mem h, List.not_mem_nil, h]

/-- Up to a newline behind them, all bytes belong to the complete lines. -/
theorem completeLines_append {back : Bytes} (h : newline ∈ back) (front : Bytes) :
    completeLines (front ++ back) = front ++ completeLines back := by
  induction front with
  | nil => rfl
  | cons b front ih =>
    have hmem : newline ∈ b :: (front ++ back) :=
      List.mem_cons_of_mem b (List.mem_append_right front h)
    rw [List.cons_append, completeLines_cons_of_mem hmem, ih, List.cons_append]

/-- The complete lines stand in front. -/
theorem isPrefix_completeLines (bytes : Bytes) : completeLines bytes <+: bytes := by
  induction bytes with
  | nil => exact List.nil_prefix
  | cons b bytes ih =>
    by_cases h : newline ∈ b :: bytes
    · rw [completeLines_cons_of_mem h]
      exact List.cons_prefix_cons.mpr ⟨rfl, ih⟩
    · rw [completeLines_of_not_mem h]
      exact List.nil_prefix

/-- In front of a failure, bytes are read as their complete lines, and the rest is lost. -/
theorem prepend_error_eq (bytes : Bytes) (reason : Text) (readings : List Reading) :
    prepend bytes (.error reason :: readings) =
      (physicalLines (completeLines bytes)).map .ok ++ .error reason :: readings := by
  induction bytes with
  | nil => rfl
  | cons b bytes ih =>
    by_cases h : newline ∈ b :: bytes
    · rw [prepend_cons, ih, completeLines_cons_of_mem h, physicalLines]
      by_cases hb : b = newline
      · rw [if_pos hb, hb, prependByte_newline]
        rfl
      · -- There is a line behind this byte for it to be joined to.
        have hmem : newline ∈ bytes := (List.mem_cons.mp h).resolve_left (Ne.symm hb)
        have hne : completeLines bytes ≠ [] := by
          intro hnil
          rw [← mem_completeLines_iff, hnil] at hmem
          cases hmem
        rw [if_neg hb, prependByte_of_ne hb, physicalLines_eq_cons hne]
        rfl
    · rw [completeLines_of_not_mem h]
      exact prepend_error_of_not_mem h reason readings

/-- There are as many complete lines as newlines. -/
theorem length_physicalLines_completeLines (bytes : Bytes) :
    (physicalLines (completeLines bytes)).length = bytes.count newline := by
  induction bytes with
  | nil => rfl
  | cons b bytes ih =>
    by_cases h : newline ∈ b :: bytes
    · rw [completeLines_cons_of_mem h, physicalLines]
      by_cases hb : b = newline
      · rw [if_pos hb, List.length_cons, ih, hb, List.count_cons_self]
      · have hmem : newline ∈ bytes := (List.mem_cons.mp h).resolve_left (Ne.symm hb)
        have hpos : 0 < (physicalLines (completeLines bytes)).length := by
          rw [ih]
          exact List.count_pos_iff.mpr hmem
        rw [if_neg hb, List.count_cons_of_ne hb, ← ih]
        cases hlines : physicalLines (completeLines bytes) with
        | nil =>
          rw [hlines] at hpos
          cases hpos
        | cons line lines => rfl
    · rw [completeLines_of_not_mem h, List.count_eq_zero_of_not_mem h]
      rfl

/-- No physical line is empty. -/
theorem ne_nil_of_mem_physicalLines {bytes line : Bytes} (h : line ∈ physicalLines bytes) :
    line ≠ [] := by
  induction bytes generalizing line with
  | nil => cases h
  | cons b bytes ih =>
    rw [physicalLines] at h
    split at h
    · rcases List.mem_cons.mp h with rfl | h
      · exact List.cons_ne_nil _ _
      · exact ih h
    · split at h
      · rw [List.mem_singleton.mp h]
        exact List.cons_ne_nil _ _
      next first lines hlines =>
        rcases List.mem_cons.mp h with rfl | h
        · exact List.cons_ne_nil _ _
        · exact ih (hlines ▸ List.mem_cons_of_mem first h)

/-! ## Cursors -/

namespace Cursor

/-- The cursor has handed out `count` lines, and reading on gives these readings. -/
inductive Reads : Cursor → Nat → List Reading → Prop
  /-- All of them are unread. -/
  | unread {source : Source} {count : Nat} {readings : List Reading}
      (h : source.readings = readings) : Reads ⟨source, .empty, count⟩ count readings
  /-- The first one is a line that waits in the slot; it was counted when it was read. -/
  | waiting {source : Source} {count : Nat} {line : Bytes} {readings : List Reading}
      (hne : line ≠ []) (h : source.readings = readings) :
      Reads ⟨source, ⟨some (Utf8.decode line)⟩, count + 1⟩ count (.ok line :: readings)

variable {cursor : Cursor} {count : Nat} {readings : List Reading}

/-- With nothing left to read, a read gives nothing and changes nothing. -/
theorem Reads.nextRawLine_nil (h : cursor.Reads count []) :
    cursor.nextRawLine = .ok none ⟨[], .empty, count⟩ := by
  cases h with
  | unread h =>
    rw [Source.readings_eq_nil_iff.mp h]
    rfl

/-- A read over a lull gives nothing, and goes on behind it. -/
theorem Reads.nextRawLine_lull (h : cursor.Reads count (.ok [] :: readings)) :
    ∃ source : Source, source.readings = readings ∧
      cursor.nextRawLine = .ok none ⟨source, .empty, count⟩ := by
  cases h with
  | waiting hne h => exact absurd rfl hne
  | unread h =>
    obtain ⟨source, rfl, hrest⟩ := Source.eq_lull_of_readings h
    exact ⟨source, hrest, rfl⟩

/-- A line is read and counted, from the slot or from the source, and leaves the slot empty. -/
theorem Reads.nextRawLine_line {line : Bytes} (hne : line ≠ [])
    (h : cursor.Reads count (.ok line :: readings)) :
    ∃ source : Source, source.readings = readings ∧
      cursor.nextRawLine = .ok (some (Utf8.decode line)) ⟨source, .empty, count + 1⟩ := by
  cases h with
  | @waiting source _ _ _ _ h => exact ⟨source, h, rfl⟩
  | @unread source _ _ h =>
    rcases source.readLine_cases with ⟨rfl, -⟩ | ⟨line', source', hok, hread⟩ | ⟨_, _, herror, -⟩
    · cases h
    · rw [h] at hok
      cases hok
      refine ⟨source', rfl, ?_⟩
      cases line with
      | nil => exact absurd rfl hne
      | cons b line => simp only [nextRawLine, Slot.take, Slot.held_empty, hread]
    · rw [h] at herror
      cases herror

/-- A read that meets a failure fails, and counts nothing. -/
theorem Reads.nextRawLine_error {reason : Text}
    (h : cursor.Reads count (.error reason :: readings)) :
    ∃ source : Source, source.readings = readings ∧
      cursor.nextRawLine = .error (.input reason) ⟨source, .empty, count⟩ := by
  cases h with
  | @unread source _ _ h =>
    rcases source.readLine_cases with ⟨rfl, -⟩ | ⟨_, _, hok, -⟩ | ⟨reason', source', herror, hread⟩
    · cases h
    · rw [h] at hok
      cases hok
    · rw [h] at herror
      cases herror
      refine ⟨source', rfl, ?_⟩
      simp only [nextRawLine, Slot.take, Slot.held_empty, hread]

/-- A peek at the end sees nothing. -/
theorem Reads.peekByte_nil (h : cursor.Reads count []) :
    cursor.peekByte = .ok none ⟨[], .empty, count⟩ := by
  cases h with
  | unread h =>
    rw [Source.readings_eq_nil_iff.mp h]
    rfl

/-- A peek takes a lull for the end, and is then past it. -/
theorem Reads.peekByte_lull (h : cursor.Reads count (.ok [] :: readings)) :
    ∃ source : Source, source.readings = readings ∧
      cursor.peekByte = .ok none ⟨source, .empty, count⟩ := by
  cases h with
  | waiting hne h => exact absurd rfl hne
  | unread h =>
    obtain ⟨source, rfl, hrest⟩ := Source.eq_lull_of_readings h
    exact ⟨source, hrest, rfl⟩

/-- A peek sees whether the next line starts with an ASCII character, whether the line waits or is
unread. -/
theorem Reads.peekByte_line {b : UInt8} {line : Bytes}
    (h : cursor.Reads count (.ok (b :: line) :: readings)) {a : Char} (ha : a.toNat < 0x80) :
    ∃ first, cursor.peekByte = .ok first cursor ∧
      (first = some (UInt8.ofNat a.toNat) ↔ b = UInt8.ofNat a.toNat) := by
  cases h with
  | waiting hne h =>
    refine ⟨_, rfl, ?_⟩
    rw [Utf8.head?_encode_eq_some_iff ha, Utf8.head?_decode_eq_some_iff ha, List.head?_cons,
      Option.some.injEq]
  | @unread source _ _ h =>
    rcases source with _ | ⟨⟨d, rest⟩ | reason | _, source⟩
    · cases h
    · rcases prepend_cons_cases d rest (Source.readings source) with ⟨_, _, hok⟩ | ⟨_, _, herror⟩
      · rw [Source.readings_chunk, hok] at h
        cases h
        exact ⟨some b, rfl, by rw [Option.some.injEq]⟩
      · rw [Source.readings_chunk, herror] at h
        cases h
    · cases h
    · cases h

/-- In front of a line that will fail, a peek fails too unless there is a byte of that line. -/
theorem Reads.peekByte_error {reason : Text} (h : cursor.Reads count (.error reason :: readings)) :
    (∃ first, cursor.peekByte = .ok first cursor) ∨
      ∃ source, cursor.peekByte = .error (.input reason) ⟨source, .empty, count⟩ := by
  cases h with
  | @unread source _ _ h =>
    rcases source with _ | ⟨⟨b, rest⟩ | reason | _, source⟩
    · cases h
    · exact .inl ⟨some b, rfl⟩
    · cases h
      exact .inr ⟨source, rfl⟩
    · cases h

end Cursor

end LinkDump
