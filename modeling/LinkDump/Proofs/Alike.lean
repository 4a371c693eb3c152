import LinkDump.Proofs.HeaderLines
import LinkDump.Proofs.LinkLines
import LinkDump.Proofs.Readings

/-! # Cursors that read alike
Two cursors read alike if reading on gives the same from both, up to the first failure. In one more
case they do: the second one may be set to fail, at a known line and for a known reason, at the very
place where the first one comes to its end. `Cursor.Alike none` is the first relation and
`Cursor.Alike (some stop)` the second. Every loop over lines respects both: what it gives is the
same, or the second one stops where the first one ends. How the bytes are cut into chunks, and which
of the two has a line in its slot, makes no difference. -/

namespace LinkDump

/-- Two lists of readings, from line `count` on, that agree up to the first failure. With a `stop`
there is no lull, and the second list goes on with the failure of `stop` where the first one
ends. -/
inductive AgreeUpTo (stop : Option DecodeError) : Nat → List Reading → List Reading → Prop
  | ended {count : Nat} (hstop : stop = none) : AgreeUpTo stop count [] []
  | stopped {count : Nat} {reason : Text} {rest : List Reading}
      (hstop : stop = some ⟨count, .input reason⟩) :
      AgreeUpTo stop count [] (.error reason :: rest)
  | lull {count : Nat} {rest rest' : List Reading} (hstop : stop = none)
      (hrest : AgreeUpTo stop count rest rest') :
      AgreeUpTo stop count (.ok [] :: rest) (.ok [] :: rest')
  | failed {count : Nat} {reason : Text} {rest rest' : List Reading} :
      AgreeUpTo stop count (.error reason :: rest) (.error reason :: rest')
  | line {count : Nat} {line : Bytes} {rest rest' : List Reading} (hne : line ≠ [])
      (hrest : AgreeUpTo stop (count + 1) rest rest') :
      AgreeUpTo stop count (.ok line :: rest) (.ok line :: rest')

/-- Every list of readings agrees with itself. -/
theorem AgreeUpTo.refl (count : Nat) (readings : List Reading) :
    AgreeUpTo none count readings readings := by
  induction readings generalizing count with
  | nil => exact .ended rfl
  | cons reading readings ih =>
    rcases reading with reason | _ | ⟨b, line⟩
    · exact .failed
    · exact .lull rfl (ih count)
    · exact .line (List.cons_ne_nil b line) (ih (count + 1))

/-- Lines agree with the same lines in front of a failure, up to that failure. -/
theorem AgreeUpTo.lines {lines : List Bytes} (hne : ∀ line ∈ lines, line ≠ []) (count : Nat)
    (reason : Text) (rest : List Reading) :
    AgreeUpTo (some ⟨count + lines.length, .input reason⟩) count (lines.map .ok)
      (lines.map .ok ++ .error reason :: rest) := by
  induction lines generalizing count with
  | nil => exact .stopped rfl
  | cons line lines ih =>
    rw [List.forall_mem_cons] at hne
    rw [add_length_cons]
    exact .line hne.1 (ih hne.2 (count + 1))

/-- A line that ends the header is handed back as it came. -/
theorem Scanner.line_of_feed_eq_done {scanner scanner' : Scanner} {raw line : Text}
    (h : scanner.feed raw = (.ok (.done line), scanner')) : line = raw := by
  simp only [Scanner.feed] at h
  repeat' split at h
  all_goals cases h
  all_goals rfl

/-- A line that starts the next record is handed back as it came. -/
theorem FixedRecord.line_of_absorb_eq_some {record record' : FixedRecord} {raw line : Text}
    (h : record.absorb raw = (some line, record')) : line = raw := by
  rw [absorb] at h
  split at h
  · cases h
    rfl
  · cases h

namespace Cursor

/-- Reading on from two cursors gives the same, up to a failure or the end. -/
def Alike (stop : Option DecodeError) (cursor cursor' : Cursor) : Prop :=
  ∃ count readings readings', cursor.Reads count readings ∧ cursor'.Reads count readings' ∧
    AgreeUpTo stop count readings readings'

variable {stop : Option DecodeError} {cursor cursor' : Cursor}

/-! ## One line -/

/-- The answers to reading one line from cursors that read alike. -/
inductive NextAlike (stop : Option DecodeError) :
    Answer (Option Text) → Answer (Option Text) → Prop
  /-- Both give the same line, which may also be handed back to both. -/
  | line {source source' : Source} {count : Nat} {text : Text}
      (hnext : Alike stop ⟨source, .empty, count⟩ ⟨source', .empty, count⟩)
      (hback : Alike stop ⟨source, ⟨some text⟩, count⟩ ⟨source', ⟨some text⟩, count⟩) :
      NextAlike stop (.ok (some text) ⟨source, .empty, count⟩)
        (.ok (some text) ⟨source', .empty, count⟩)
  /-- Both give nothing. -/
  | nothing {cursor cursor' : Cursor} (hstop : stop = none) (h : Alike stop cursor cursor')
      (hline : cursor'.line = cursor.line) : NextAlike stop (.ok none cursor) (.ok none cursor')
  /-- Both fail. -/
  | failed {e : LineError} {cursor cursor' : Cursor} (hline : cursor'.line = cursor.line) :
      NextAlike stop (.error e cursor) (.error e cursor')
  /-- The first one has ended, and the second one stops. -/
  | stopped {e : DecodeError} {cursor' : Cursor} (hstop : stop = some e)
      (hline : cursor'.line = e.line) :
      NextAlike stop (.ok none ⟨[], .empty, e.line⟩) (.error e.cause cursor')

/-- The next line is read alike from cursors that read alike. -/
theorem Alike.nextRawLine (h : Alike stop cursor cursor') :
    NextAlike stop cursor.nextRawLine cursor'.nextRawLine := by
  obtain ⟨count, readings, readings', hreads, hreads', hagree⟩ := h
  cases hagree with
  | ended hstop =>
    rw [hreads.nextRawLine_nil, hreads'.nextRawLine_nil]
    exact .nothing hstop ⟨count, [], [], .unread rfl, .unread rfl, .ended hstop⟩ rfl
  | stopped hstop =>
    obtain ⟨source', -, hread'⟩ := hreads'.nextRawLine_error
    rw [hreads.nextRawLine_nil, hread']
    exact .stopped hstop rfl
  | lull hstop hrest =>
    obtain ⟨source, hsource, hread⟩ := hreads.nextRawLine_lull
    obtain ⟨source', hsource', hread'⟩ := hreads'.nextRawLine_lull
    rw [hread, hread']
    exact .nothing hstop ⟨count, _, _, .unread hsource, .unread hsource', hrest⟩ rfl
  | failed =>
    obtain ⟨source, -, hread⟩ := hreads.nextRawLine_error
    obtain ⟨source', -, hread'⟩ := hreads'.nextRawLine_error
    rw [hread, hread']
    exact .failed rfl
  | line hne hrest =>
    obtain ⟨source, hsource, hread⟩ := hreads.nextRawLine_line hne
    obtain ⟨source', hsource', hread'⟩ := hreads'.nextRawLine_line hne
    rw [hread, hread']
    exact .line ⟨count + 1, _, _, .unread hsource, .unread hsource', hrest⟩
      ⟨count, _, _, .waiting hne hsource, .waiting hne hsource', .line hne hrest⟩

/-! ## Loops over lines -/

/-- The answers of a loop that reads lines and hands the last one back, on cursors that read
alike. -/
inductive LoopAlike (stop : Option DecodeError) {α : Type} : Answer α → Answer α → Prop
  /-- Both give the same. With a `stop` still to come, this is for a line that was handed back. -/
  | done {value : α} {cursor cursor' : Cursor} (h : Alike stop cursor cursor')
      (hline : cursor'.line = cursor.line) (hheld : stop = none ∨ cursor.slot.isEmpty = false) :
      LoopAlike stop (.ok value cursor) (.ok value cursor')
  /-- Both fail. -/
  | failed {e : LineError} {cursor cursor' : Cursor} (hline : cursor'.line = cursor.line) :
      LoopAlike stop (.error e cursor) (.error e cursor')
  /-- The first one has come to the end of the lines, and the second one stops. -/
  | stopped {value : α} {e : DecodeError} {cursor' : Cursor} (hstop : stop = some e)
      (hline : cursor'.line = e.line) :
      LoopAlike stop (.ok value ⟨[], .empty, e.line⟩) (.error e.cause cursor')

/-- Scans of the header find the same fields. -/
theorem Alike.scanLines (h : Alike stop cursor cursor') (scanner : Scanner) :
    (cursor'.scanLines scanner).1 = (cursor.scanLines scanner).1 ∧
      LoopAlike stop (cursor.scanLines scanner).2 (cursor'.scanLines scanner).2 := by
  induction hp : cursor.pending using Nat.strongRecOn generalizing cursor cursor' scanner with
  | _ n ih =>
    have hnext := h.nextRawLine
    rw [scanLines_eq scanner cursor, scanLines_eq scanner cursor']
    generalize hread : cursor.nextRawLine = answer at hnext
    generalize cursor'.nextRawLine = answer' at hnext
    cases hnext with
    | failed hline => exact ⟨rfl, .failed hline⟩
    | nothing hstop hend hline => exact ⟨rfl, .done hend hline (.inl hstop)⟩
    | stopped hstop hline => exact ⟨rfl, .stopped hstop hline⟩
    | @line source source' count text hnext hback =>
      rcases hfeed : scanner.feed text with ⟨e | _ | line, scanner₁⟩
      · simp only [hfeed, true_and]
        exact .failed rfl
      · simp only [hfeed]
        exact ih _ (hp ▸ pending_lt_of_nextRawLine hread) hnext scanner₁ rfl
      · -- The line has left the slot empty, and goes back into it.
        obtain rfl := Scanner.line_of_feed_eq_done hfeed
        simp only [hfeed, true_and]
        exact .done hback rfl (.inr rfl)

/-- Records are completed with the same lines. -/
theorem Alike.absorbLines (h : Alike stop cursor cursor') (record : FixedRecord) :
    LoopAlike stop (cursor.absorbLines record) (cursor'.absorbLines record) := by
  induction hp : cursor.pending using Nat.strongRecOn generalizing cursor cursor' record with
  | _ n ih =>
    have hnext := h.nextRawLine
    rw [absorbLines_eq record cursor, absorbLines_eq record cursor']
    generalize hread : cursor.nextRawLine = answer at hnext
    generalize cursor'.nextRawLine = answer' at hnext
    cases hnext with
    | failed hline => exact .failed hline
    | nothing hstop hend hline => exact .done hend hline (.inl hstop)
    | stopped hstop hline => exact .stopped hstop hline
    | @line source source' count text hnext hback =>
      rcases habsorb : record.absorb text with ⟨_ | line, record₁⟩
      · simp only [habsorb]
        exact ih _ (hp ▸ pending_lt_of_nextRawLine hread) hnext record₁ rfl
      · obtain rfl := FixedRecord.line_of_absorb_eq_some habsorb
        simp only [habsorb]
        exact .done hback rfl (.inr rfl)

/-! ## One link -/

/-- The answers to reading one link from cursors that read alike. -/
inductive LinkAlike (stop : Option DecodeError) (dialect : Dialect) :
    Answer (Option Link) → Answer (Option Link) → Prop
  /-- Both give the same link. With a `stop` still to come, a record of fixed width is only complete
  once the line that starts the next one has been handed back. -/
  | link {link : Link} {cursor cursor' : Cursor} (h : Alike stop cursor cursor')
      (hline : cursor'.line = cursor.line)
      (hheld : stop = none ∨ dialect.width? = none ∨ cursor.slot.isEmpty = false) :
      LinkAlike stop dialect (.ok (some link) cursor) (.ok (some link) cursor')
  /-- Both give nothing. -/
  | nothing {cursor cursor' : Cursor} (hstop : stop = none) (hline : cursor'.line = cursor.line) :
      LinkAlike stop dialect (.ok none cursor) (.ok none cursor')
  /-- Both fail. -/
  | failed {e : LineError} {cursor cursor' : Cursor} (hline : cursor'.line = cursor.line) :
      LinkAlike stop dialect (.error e cursor) (.error e cursor')
  /-- The first one has come to the end of the lines, and the second one stops. -/
  | stopped {e : DecodeError} {cursor' : Cursor} (hstop : stop = some e)
      (hline : cursor'.line = e.line) :
      LinkAlike stop dialect (.ok none ⟨[], .empty, e.line⟩) (.error e.cause cursor')
  /-- The first one has come to the end of the lines with a record at hand, and the second one
  stops. -/
  | stoppedWithin {link : Link} {e : DecodeError} {cursor' : Cursor} (hstop : stop = some e)
      (hwidth : dialect.width? ≠ none) (hline : cursor'.line = e.line) :
      LinkAlike stop dialect (.ok (some link) ⟨[], .empty, e.line⟩) (.error e.cause cursor')

/-- A link on a line of its own is what its line is parsed to. -/
theorem NextAlike.parseLine {answer answer' : Answer (Option Text)}
    (h : NextAlike stop answer answer') (parse : Text → Except LineError Link) {dialect : Dialect}
    (hwidth : dialect.width? = none) :
    LinkAlike stop dialect (parseLine parse answer) (parseLine parse answer') := by
  cases h with
  | @line _ _ _ text hnext hback =>
    rw [Cursor.parseLine, Cursor.parseLine]
    cases parse text with
    | ok link => exact .link hnext rfl (.inr (.inl hwidth))
    | error e => exact .failed rfl
  | nothing hstop h hline => exact .nothing hstop hline
  | failed hline => exact .failed hline
  | stopped hstop hline => exact .stopped hstop hline

/-- Dropping the line break before parsing a line is part of parsing it. -/
theorem readBars_eq_parseLine (cursor : Cursor) :
    cursor.readBars = Cursor.parseLine (fun raw => Link.ofBars (dropLineBreak raw))
      cursor.nextRawLine := by
  rw [readBars, nextLine]
  rcases cursor.nextRawLine with ⟨_ | raw, cursor'⟩ | ⟨e, cursor'⟩ <;> rfl

/-- Links are read from the same lines, in every dialect. -/
theorem Alike.readLink (h : Alike stop cursor cursor') (dialect : Dialect) :
    LinkAlike stop dialect (cursor.readLink dialect) (cursor'.readLink dialect) := by
  have hnext := h.nextRawLine
  cases dialect with
  | rfc =>
    rw [Cursor.readLink, Cursor.readLink, readBars_eq_parseLine, readBars_eq_parseLine]
    exact hnext.parseLine _ rfl
  | variableWidth => exact hnext.parseLine Link.ofFirstBar rfl
  | fixedWidth width =>
    simp only [Cursor.readLink, readFixed]
    generalize cursor.nextRawLine = answer at hnext
    generalize cursor'.nextRawLine = answer' at hnext
    cases hnext with
    | nothing hstop h hline => exact .nothing hstop hline
    | failed hline => exact .failed hline
    | stopped hstop hline => exact .stopped hstop hline
    | @line source source' count text hnext hback =>
      simp only
      cases FixedRecord.start width text with
      | error e => exact .failed rfl
      | ok record =>
        -- The record goes on until a line is handed back, or until the lines end.
        have hloop := hnext.absorbLines record
        simp only
        generalize Cursor.absorbLines record ⟨source, .empty, count⟩ = answer at hloop
        generalize Cursor.absorbLines record ⟨source', .empty, count⟩ = answer' at hloop
        cases hloop with
        | done h hline hheld => exact .link h hline (hheld.imp_right .inr)
        | failed hline => exact .failed hline
        | stopped hstop hline => exact .stoppedWithin hstop (Option.some_ne_none width) hline

/-- A line that waits in the slot is read as a link or refused, so the links are not over. -/
theorem readLink_ne_none_of_held {cursor' : Cursor} (hheld : cursor.slot.isEmpty = false)
    (dialect : Dialect) : cursor.readLink dialect ≠ .ok none cursor' := by
  obtain ⟨source, ⟨_ | text⟩, count⟩ := cursor
  · cases hheld
  · cases dialect with
    | rfc =>
      rw [Cursor.readLink, readBars_eq_parseLine, nextRawLine, Slot.take, Cursor.parseLine]
      split <;> simp
    | variableWidth =>
      rw [Cursor.readLink, readFirstBar, nextRawLine, Slot.take, Cursor.parseLine]
      split <;> simp
    | fixedWidth width =>
      rw [Cursor.readLink, readFixed, nextRawLine, Slot.take]
      simp only
      split
      · simp
      · split <;> simp

end Cursor

end LinkDump
