import LinkDump.Proofs.Alike

/-! # Invariants of reading
Whatever a reader does with its cursor comes down to five moves: it looks at the source, takes the
line that waits, pulls a line, lets go of the line it has in hand, or hands it back. What these
moves keep, every operation keeps, however the operation ends, and so every session does. -/

namespace LinkDump

/-- The state that an operation leaves behind, also if it fails. -/
def stateAfter {ε σ α : Type} : EStateM.Result ε σ α → σ
  | .ok _ state => state
  | .error _ state => state

/-! ## Where a link begins -/

namespace Cursor

variable {cursor cursor' : Cursor} {dialect : Dialect} {width : Nat} {link : Link}

/-- A link that is parsed comes from a line that was read. -/
theorem exists_of_parseLine {parse : Text → Except LineError Link} {answer : Answer (Option Text)}
    (h : parseLine parse answer = .ok (some link) cursor') :
    ∃ line, answer = .ok (some line) cursor' ∧ parse line = .ok link := by
  rw [parseLine.eq_def] at h
  split at h
  · cases h
  · cases h
  next line cursor₁ =>
    split at h
    next hparsed =>
      cases h
      exact ⟨line, rfl, hparsed⟩
    · cases h

/-- A line without its line break comes from one that has it. -/
theorem exists_of_nextLine {line : Text} (h : cursor.nextLine = .ok (some line) cursor') :
    ∃ raw, cursor.nextRawLine = .ok (some raw) cursor' ∧ dropLineBreak raw = line := by
  rw [nextLine] at h
  split at h
  next hread =>
    simp only [EStateM.Result.ok.injEq, Option.map_eq_some_iff] at h
    obtain ⟨⟨raw, rfl, hline⟩, rfl⟩ := h
    exact ⟨raw, hread, hline⟩
  · cases h

/-- Parsing a line leaves the cursor where reading it has left it. -/
theorem stateAfter_parseLine (parse : Text → Except LineError Link)
    (answer : Answer (Option Text)) :
    stateAfter (parseLine parse answer) = stateAfter answer := by
  rcases answer with ⟨_ | line, cursor⟩ | ⟨e, cursor⟩
  · rfl
  · rw [parseLine]
    split <;> rfl
  · rfl

/-- Dropping a line break leaves the cursor where reading the line has left it. -/
theorem stateAfter_nextLine (cursor : Cursor) :
    stateAfter cursor.nextLine = stateAfter cursor.nextRawLine := by
  rw [nextLine]
  rcases cursor.nextRawLine with ⟨raw, cursor₁⟩ | ⟨e, cursor₁⟩ <;> rfl

/-- Where every link takes one line, a link is what the line that was read is parsed to. -/
theorem exists_line_of_readLink {parse : Text → Except LineError Link}
    (hparse : dialect.ofLine = some parse)
    (h : cursor.readLink dialect = .ok (some link) cursor') :
    ∃ raw, cursor.nextRawLine = .ok (some raw) cursor' ∧ parse raw = .ok link := by
  cases dialect with
  | rfc =>
    cases hparse
    obtain ⟨line, hline, hparsed⟩ := exists_of_parseLine h
    obtain ⟨raw, hread, rfl⟩ := exists_of_nextLine hline
    exact ⟨raw, hread, hparsed⟩
  | variableWidth =>
    cases hparse
    exact exists_of_parseLine h
  | fixedWidth width => cases hparse

/-- With sources of a fixed width, the line that was read first starts a record, and further lines
complete it. -/
theorem exists_record_of_readLink
    (h : cursor.readLink (.fixedWidth width) = .ok (some link) cursor') :
    ∃ raw record cursor₁, cursor.nextRawLine = .ok (some raw) cursor₁ ∧
      FixedRecord.start width raw = .ok record ∧ cursor₁.absorbLines record = .ok link cursor' := by
  rw [readLink, readFixed] at h
  split at h
  · cases h
  · cases h
  next raw cursor₁ hread =>
    split at h
    · cases h
    next record hstart =>
      split at h
      next habsorb =>
        cases h
        exact ⟨raw, record, cursor₁, hread, hstart, habsorb⟩
      · cases h

/-! ## Invariants of cursors -/

/-- An invariant in two parts: what holds between two lines, and what holds with a line in hand. -/
structure Linewise (rest : Cursor → Prop) (hand : Text → Cursor → Prop) : Prop where
  look {cursor : Cursor} (source : Source) : rest cursor → rest { cursor with source }
  take {source : Source} {line : Text} {count : Nat} :
    rest ⟨source, ⟨some line⟩, count⟩ → hand line ⟨source, .empty, count⟩
  pull {source source' : Source} {seen bytes : Bytes} {count : Nat} :
    rest ⟨source, .empty, count⟩ → newline ∉ seen → source.readLine = .ok bytes source' →
      hand (Utf8.decode (seen ++ bytes)) ⟨source', .empty, count + 1⟩
  letGo {line : Text} {cursor : Cursor} : hand line cursor → rest cursor
  handBack {line : Text} {cursor : Cursor} :
    hand line cursor → rest { cursor with slot := ⟨some line⟩ }

namespace Linewise

variable {rest rest' : Cursor → Prop} {hand hand' : Text → Cursor → Prop}

/-- A line that was read is in hand. -/
theorem hand_of_nextRawLine (inv : Linewise rest hand) (h : rest cursor) {line : Text}
    (hread : cursor.nextRawLine = .ok (some line) cursor') : hand line cursor' := by
  obtain ⟨source, ⟨held⟩, count⟩ := cursor
  cases held with
  | some text =>
    cases hread
    exact inv.take h
  | none =>
    simp only [nextRawLine, Slot.take] at hread
    split at hread
    · cases hread
    · cases hread
    next hline =>
      cases hread
      exact inv.pull h List.not_mem_nil hline

/-- Reading a line with its line break keeps the invariant. -/
theorem nextRawLine (inv : Linewise rest hand) (h : rest cursor) :
    rest (stateAfter cursor.nextRawLine) := by
  obtain ⟨source, ⟨held⟩, count⟩ := cursor
  cases held with
  | some text => exact inv.letGo (inv.take h)
  | none =>
    simp only [Cursor.nextRawLine, Slot.take]
    split
    · exact inv.look _ h
    · exact inv.look _ h
    next hline => exact inv.letGo (inv.pull h List.not_mem_nil hline)

/-- A line that has been read may be handed back, and if it is refused nothing has changed. -/
theorem pushBack (inv : Linewise rest hand) {line : Text} (h : hand line cursor) :
    rest (stateAfter (cursor.pushBack line)) := by
  obtain ⟨source, ⟨held⟩, count⟩ := cursor
  cases held with
  | some text => exact inv.letGo h
  | none => exact inv.handBack h

/-- With an empty slot, reading the rest of a line and handing it back keeps the invariant. -/
theorem restoreLine (inv : Linewise rest hand) (h : rest cursor) (hslot : cursor.slot = .empty)
    {seen : Bytes} (hseen : newline ∉ seen) : rest (stateAfter (cursor.restoreLine seen)) := by
  obtain ⟨source, slot, count⟩ := cursor
  cases hslot
  rw [Cursor.restoreLine]
  split
  · exact inv.look _ h
  next hread => exact inv.pushBack (inv.pull h hseen hread)

/-- The search for a mark keeps the invariant. -/
theorem consumeMark (inv : Linewise rest hand) (h : rest cursor) :
    rest (stateAfter cursor.consumeMark) := by
  rw [Cursor.consumeMark]
  split
  next hempty =>
    split
    · exact inv.look _ h
    next matched source hmark =>
      split
      · exact inv.look _ h
      · split
        · exact inv.look _ h
        · have hseen : newline ∉ byteOrderMark.take matched :=
            fun hmem => absurd (List.mem_of_mem_take hmem) (by decide)
          have hslot : { cursor with source }.slot = .empty := Slot.isEmpty_iff.mp hempty
          have hrestore := inv.restoreLine (inv.look source h) hslot hseen
          split
          next hok => rwa [hok] at hrestore
          next herror => rwa [herror] at hrestore
  · exact h

/-- Peeking at a byte keeps the invariant. -/
theorem peekByte (inv : Linewise rest hand) (h : rest cursor) :
    rest (stateAfter cursor.peekByte) := by
  rw [Cursor.peekByte]
  split
  · exact h
  · split
    · exact inv.look _ h
    · exact inv.look _ h

/-- Feeding lines to a scan keeps the invariant. -/
theorem scanLines (inv : Linewise rest hand) (scanner : Scanner) (h : rest cursor) :
    rest (stateAfter (cursor.scanLines scanner).2) := by
  fun_induction Cursor.scanLines scanner cursor with
  | case1 scanner cursor e cursor₁ hread =>
    have hnext := inv.nextRawLine h
    rwa [hread] at hnext
  | case2 scanner cursor cursor₁ hread =>
    have hnext := inv.nextRawLine h
    rwa [hread] at hnext
  | case3 scanner cursor raw cursor₁ hread e scanner₁ hfeed =>
    exact inv.letGo (inv.hand_of_nextRawLine h hread)
  | case4 scanner cursor raw cursor₁ hread scanner₁ hfeed ih =>
    exact ih (inv.letGo (inv.hand_of_nextRawLine h hread))
  | case5 scanner cursor raw cursor₁ hread line scanner₁ hfeed =>
    obtain rfl := Scanner.line_of_feed_eq_done hfeed
    exact inv.pushBack (inv.hand_of_nextRawLine h hread)

/-- Going on with a scan behind the mark keeps the invariant. -/
theorem scanUnmarked (inv : Linewise rest hand) (scanner : Scanner) (h : rest cursor) :
    rest (stateAfter (cursor.scanUnmarked scanner).2) := by
  have hpeek := inv.peekByte h
  rw [Cursor.scanUnmarked]
  split
  next herror => rwa [herror] at hpeek
  next hok =>
    rw [hok] at hpeek
    split
    · exact inv.scanLines scanner hpeek
    · exact hpeek

/-- Scanning the header keeps the invariant. -/
theorem scanHeader (inv : Linewise rest hand) (h : rest cursor) :
    rest (stateAfter cursor.scanHeader.2) := by
  have hmark := inv.consumeMark h
  rw [Cursor.scanHeader_eq_scanUnmarked]
  split
  next herror => rwa [herror] at hmark
  next hok =>
    rw [hok] at hmark
    exact inv.scanUnmarked {} hmark

/-- Completing a record keeps the invariant. -/
theorem absorbLines (inv : Linewise rest hand) (record : FixedRecord) (h : rest cursor) :
    rest (stateAfter (cursor.absorbLines record)) := by
  fun_induction Cursor.absorbLines record cursor with
  | case1 record cursor e cursor₁ hread =>
    have hnext := inv.nextRawLine h
    rwa [hread] at hnext
  | case2 record cursor cursor₁ hread =>
    have hnext := inv.nextRawLine h
    rwa [hread] at hnext
  | case3 record cursor raw cursor₁ hread record₁ habsorb ih =>
    exact ih (inv.letGo (inv.hand_of_nextRawLine h hread))
  | case4 record cursor raw cursor₁ hread next record₁ habsorb cursor₂ hpush =>
    obtain rfl := FixedRecord.line_of_absorb_eq_some habsorb
    have hback := inv.pushBack (inv.hand_of_nextRawLine h hread)
    rwa [hpush] at hback
  | case5 record cursor raw cursor₁ hread next record₁ habsorb e cursor₂ hpush =>
    obtain rfl := FixedRecord.line_of_absorb_eq_some habsorb
    have hback := inv.pushBack (inv.hand_of_nextRawLine h hread)
    rwa [hpush] at hback

/-- Reading a record of fixed width keeps the invariant. -/
theorem readFixed (inv : Linewise rest hand) (width : Nat) (h : rest cursor) :
    rest (stateAfter (cursor.readFixed width)) := by
  have hnext := inv.nextRawLine h
  rw [Cursor.readFixed]
  split
  next hread => rwa [hread] at hnext
  next hread => rwa [hread] at hnext
  next cursor₁ hread =>
    rw [hread] at hnext
    split
    · exact hnext
    next record _ =>
      have habsorb : rest (stateAfter (cursor₁.absorbLines record)) :=
        inv.absorbLines record hnext
      split
      next hok => rwa [hok] at habsorb
      next herror => rwa [herror] at habsorb

/-- In every dialect, reading a link keeps the invariant. -/
theorem readLink (inv : Linewise rest hand) (h : rest cursor) (dialect : Dialect) :
    rest (stateAfter (cursor.readLink dialect)) := by
  cases dialect with
  | rfc =>
    rw [Cursor.readLink, readBars, stateAfter_parseLine, stateAfter_nextLine]
    exact inv.nextRawLine h
  | variableWidth =>
    rw [Cursor.readLink, readFirstBar, stateAfter_parseLine]
    exact inv.nextRawLine h
  | fixedWidth width => exact inv.readFixed width h

/-- Behind a link there is more to say than before it: a line that has not been handed back. -/
theorem readLink_of_link (inv : Linewise rest hand) (inv' : Linewise rest' hand')
    (hstep : ∀ line cursor, hand line cursor → rest' cursor) (h : rest cursor)
    (hread : cursor.readLink dialect = .ok (some link) cursor') : rest' cursor' := by
  have hparsed : ∀ parse, dialect.ofLine = some parse → rest' cursor' := by
    intro parse hparse
    obtain ⟨raw, hline, -⟩ := exists_line_of_readLink hparse hread
    exact hstep raw _ (inv.hand_of_nextRawLine h hline)
  cases dialect with
  | rfc => exact hparsed _ rfl
  | variableWidth => exact hparsed _ rfl
  | fixedWidth width =>
    obtain ⟨raw, record, cursor₁, hline, -, habsorb⟩ := exists_record_of_readLink hread
    have hrest := inv'.absorbLines record (hstep raw _ (inv.hand_of_nextRawLine h hline))
    rwa [habsorb] at hrest

end Linewise

end Cursor

/-! ## Sessions -/

namespace Reader

variable {reader reader' : Reader} {c : Call} {link : Link}

/-- Reading the fields does not change the dialect. -/
theorem dialect_readFields (reader : Reader) :
    (stateAfter reader.readFields).dialect = reader.dialect := by
  rw [readFields]
  split
  · split <;> rfl
  · rfl

/-- Behind the header, reading a link changes the cursor and the phase, and nothing else. -/
theorem exists_stateAfter_readLink (reader : Reader) : ∃ cursor phase,
    stateAfter reader.readLink = { stateAfter reader.readFields with cursor, phase } := by
  rw [readLink]
  cases reader.readFields with
  | error e reader₁ => exact ⟨_, _, rfl⟩
  | ok fields reader₁ =>
    dsimp only
    split
    · exact ⟨_, _, rfl⟩
    · split <;> exact ⟨_, _, rfl⟩

/-- Reading a link does not change the dialect. -/
theorem dialect_readLink (reader : Reader) :
    (stateAfter reader.readLink).dialect = reader.dialect := by
  obtain ⟨cursor, phase, hnext⟩ := reader.exists_stateAfter_readLink
  rw [hnext]
  exact reader.dialect_readFields

/-- Once the fields have been read, reading a link leaves them as they are. -/
theorem fields_readLink (reader : Reader) :
    (stateAfter reader.readLink).fields = (stateAfter reader.readFields).fields := by
  obtain ⟨cursor, phase, hnext⟩ := reader.exists_stateAfter_readLink
  rw [hnext]

/-- A call for the fields leaves the reader where reading them leaves it. -/
theorem call_fields_snd (reader : Reader) :
    (reader.call .fields).2 = stateAfter reader.readFields := by
  rw [call]
  cases reader.readFields <;> rfl

/-- A call for a link leaves the reader where reading it leaves it. -/
theorem call_link_snd (reader : Reader) : (reader.call .link).2 = stateAfter reader.readLink := by
  rw [call]
  rcases reader.readLink with ⟨_ | link, reader₁⟩ | ⟨e, reader₁⟩ <;> rfl

/-- What all states that a call may leave behind have in common. -/
theorem call_snd {P : Reader → Prop} (hfields : P (stateAfter reader.readFields))
    (hlink : P (stateAfter reader.readLink)) (c : Call) : P (reader.call c).2 := by
  cases c with
  | fields => rwa [call_fields_snd]
  | link => rwa [call_link_snd]
  | item => rwa [call_item, call_link_snd]

/-- A link is read behind the header, which is scanned before it if it has not been yet. -/
theorem cursor_readLink_of_eq_ok (h : reader.readLink = .ok (some link) reader') :
    (stateAfter reader.readFields).cursor.readLink reader.dialect =
      .ok (some link) reader'.cursor := by
  have hdialect := reader.dialect_readFields
  rw [readLink] at h
  split at h
  · cases h
  next reader₁ hfields =>
    rw [hfields] at hdialect ⊢
    rw [← hdialect]
    split at h
    · cases h
    · split at h
      next hread =>
        cases h
        exact hread
      · cases h
      · cases h

/-- A call that gives a link has read one. -/
theorem readLink_of_call_eq_link (h : (reader.call c).1 = .link link) :
    reader.readLink = .ok (some link) (reader.call c).2 := by
  have hlink : (reader.call .link).1 = .link link →
      reader.readLink = .ok (some link) (reader.call .link).2 := by
    rw [call]
    rcases reader.readLink with ⟨_ | link', reader₁⟩ | ⟨e, reader₁⟩
    · exact fun hreply => Reply.noConfusion hreply
    · rintro ⟨⟩
      rfl
    · exact fun hreply => Reply.noConfusion hreply
  cases c with
  | fields =>
    rw [call] at h
    cases hread : reader.readFields <;> rw [hread] at h <;> cases h
  | link => exact hlink h
  | item =>
    rw [call_item] at h ⊢
    exact hlink h

/-- Each entry of a transcript is the reply to one call, made behind some of the others. -/
theorem exists_of_mem_transcript {calls : List Call} {entry : Entry}
    (h : entry ∈ (reader.transcript calls).1) :
    ∃ (before : List Call) (c : Call), entry.reply = ((reader.transcript before).2.call c).1 := by
  induction calls generalizing reader with
  | nil => cases h
  | cons c calls ih =>
    rw [transcript, transcript_cons, List.mem_cons] at h
    rcases h with rfl | hmem
    · exact ⟨[], c, rfl⟩
    · obtain ⟨before, c', hreply⟩ := ih hmem
      exact ⟨c :: before, c', hreply⟩

end Reader

namespace Cursor.Linewise

variable {reader : Reader} {rest rest' : Cursor → Prop} {hand hand' : Text → Cursor → Prop}

/-- A reader keeps the invariant of its cursor while it reads the fields. -/
theorem reader_readFields (inv : Linewise rest hand) (h : rest reader.cursor) :
    rest (stateAfter reader.readFields).cursor := by
  have hscan := inv.scanHeader h
  rw [Reader.readFields]
  split
  · split
    next hok => rwa [hok] at hscan
    next herror => rwa [herror] at hscan
  · exact h

/-- A reader keeps the invariant of its cursor while it reads a link. -/
theorem reader_readLink (inv : Linewise rest hand) (h : rest reader.cursor) :
    rest (stateAfter reader.readLink).cursor := by
  have hfields := inv.reader_readFields h
  rw [Reader.readLink]
  split
  next herror => rwa [herror] at hfields
  next reader₁ hok =>
    rw [hok] at hfields
    split
    · exact hfields
    · have hlink : rest (stateAfter (reader₁.cursor.readLink reader₁.dialect)) :=
        inv.readLink hfields reader₁.dialect
      split
      next hread => rwa [hread] at hlink
      next hread => rwa [hread] at hlink
      next hread => rwa [hread] at hlink

/-- The step of a session. -/
theorem call (inv : Linewise rest hand) (h : rest reader.cursor) (c : Call) :
    rest (reader.call c).2.cursor :=
  Reader.call_snd (P := fun reader => rest reader.cursor) (inv.reader_readFields h)
    (inv.reader_readLink h) c

/-- The step of a session that gives a link. -/
theorem call_of_link (inv : Linewise rest hand) (inv' : Linewise rest' hand')
    (hstep : ∀ line cursor, hand line cursor → rest' cursor) (h : rest reader.cursor) {c : Call}
    {link : Link} (hreply : (reader.call c).1 = .link link) : rest' (reader.call c).2.cursor :=
  inv.readLink_of_link inv' hstep (inv.reader_readFields h)
    (Reader.cursor_readLink_of_eq_ok (Reader.readLink_of_call_eq_link hreply))

end Cursor.Linewise

end LinkDump
