import LinkDump.Proofs.Causes
import LinkDump.Proofs.RecordLines
import LinkDump.Proofs.StreamAgreement

/-! # Use of the lookahead slot
A line can be handed back only to an empty slot. The decoders never do anything else: every line
that they hand back has just been read, and a read leaves the slot empty. So only a caller of a bare
cursor can overfill the slot, by handing back a line of its own, and then nothing is changed. -/

namespace LinkDump

namespace Cursor

/-- What a caller can do with a cursor. -/
inductive Step
  /-- Read a line with its line break. -/
  | rawLine
  /-- Read a line without its line break. -/
  | line
  /-- Peek at the next byte. -/
  | byte
  /-- Consume a byte order mark. -/
  | mark
  /-- Scan the header, with a new scan or with one that has begun before. -/
  | scan (scanner : Scanner)
  /-- Read a link with its fields between bars. -/
  | bars
  /-- Read a link whose source is ended by the first bar. -/
  | firstBar
  /-- Read a link whose source has a fixed width. -/
  | fixed (width : Nat)
  /-- Hand back any line. -/
  | handBack (line : Text)
  deriving Repr, DecidableEq

/-- What an answer leaves behind: the error if there is one, and the cursor. -/
def Answer.effect {α : Type} : Answer α → Option LineError × Cursor
  | .ok _ cursor => (none, cursor)
  | .error e cursor => (some e, cursor)

/-- Take a step. -/
def perform : Step → Cursor → Option LineError × Cursor
  | .rawLine, cursor => Answer.effect cursor.nextRawLine
  | .line, cursor => Answer.effect cursor.nextLine
  | .byte, cursor => Answer.effect cursor.peekByte
  | .mark, cursor => Answer.effect cursor.consumeMark
  | .scan scanner, cursor => Answer.effect (cursor.scanInto scanner).2
  | .bars, cursor => Answer.effect cursor.readBars
  | .firstBar, cursor => Answer.effect cursor.readFirstBar
  | .fixed width, cursor => Answer.effect (cursor.readFixed width)
  | .handBack line, cursor => Answer.effect (cursor.pushBack line)

/-- Take steps one after another, also after errors. -/
def run (steps : List Step) (cursor : Cursor) : Cursor :=
  steps.foldl (fun cursor step => (perform step cursor).2) cursor

/-- An answer that blames the input does not overfill the slot. -/
theorem effect_ne_slotOccupied {α : Type} {failures' : List Text} {answer : Answer α}
    (h : Accounted id failures failures' answer) :
    (Answer.effect answer).1 ≠ some .slotOccupied := by
  intro heffect
  cases h with
  | ok hleft => cases heffect
  | error hfault hleft => exact hfault.ne_slotOccupied (Option.some.inj heffect)

/-- Only a line that is handed back can be refused for want of room. -/
theorem perform_eq_slotOccupied_iff (step : Step) (cursor : Cursor) :
    (perform step cursor).1 = some .slotOccupied ↔
      (∃ line, step = .handBack line) ∧ cursor.slot.isEmpty = false := by
  by_cases hstep : ∃ line, step = .handBack line
  · obtain ⟨line, rfl⟩ := hstep
    have hput : cursor.slot.put line = none ↔ cursor.slot.isEmpty = false :=
      Slot.put_eq_none_iff
    simp only [← hput, perform, pushBack, Step.handBack.injEq, exists_eq', true_and]
    cases cursor.slot.put line with
    | none => simp [Answer.effect]
    | some slot => simp [Answer.effect]
  · have hsound : (perform step cursor).1 ≠ some .slotOccupied := by
      cases step with
      | rawLine => exact effect_ne_slotOccupied cursor.accounted_nextRawLine
      | line => exact effect_ne_slotOccupied cursor.accounted_nextLine
      | byte => exact effect_ne_slotOccupied cursor.accounted_peekByte
      | mark => exact effect_ne_slotOccupied cursor.accounted_consumeMark
      | scan scanner => exact effect_ne_slotOccupied (cursor.accounted_scanInto scanner)
      | bars => exact effect_ne_slotOccupied cursor.accounted_readBars
      | firstBar => exact effect_ne_slotOccupied cursor.accounted_readFirstBar
      | fixed width => exact effect_ne_slotOccupied (cursor.accounted_readFixed width)
      | handBack line => exact absurd ⟨line, rfl⟩ hstep
    simp only [hstep, false_and, iff_false]
    exact hsound

/-- A line that is refused for want of room leaves everything as it was. -/
theorem perform_of_slotOccupied {step : Step} {cursor : Cursor}
    (h : (perform step cursor).1 = some .slotOccupied) : (perform step cursor).2 = cursor := by
  obtain ⟨⟨line, rfl⟩, hheld⟩ := (perform_eq_slotOccupied_iff step cursor).mp h
  rw [perform, pushBack, Slot.put_eq_none_iff.mpr hheld]
  rfl

end Cursor

/-- In no session does a reader overfill its slot. -/
theorem Reader.reply_ne_slotOccupied {reader : Reader} {calls : List Call} {entry : Entry}
    (hmem : entry ∈ (reader.transcript calls).1) (line : Nat) :
    entry.reply ≠ .failed ⟨line, .slotOccupied⟩ :=
  fun hreply => (faultOf_of_mem_transcript hmem hreply).ne_slotOccupied rfl

/-- The lookahead slot is never overfilled by a decoder: in no session of a reader or of a stream
decoder, whatever the source does, is a line handed back that finds the slot occupied, and a record
is only ever cut between characters. A caller of a bare cursor can overfill the slot, by handing
back a line while another one waits and in no other way; that changes nothing. -/
theorem slot_never_overfilled :
    (∀ (dialect : Dialect) (source : Source) (calls : List Call) (entry : Entry) (line : Nat),
      entry ∈ ((Reader.ofSource dialect source).transcript calls).1 ∨
        entry ∈ ((StreamDecoder.ofSource dialect source).transcript calls).1 →
      entry.reply ≠ .failed ⟨line, .slotOccupied⟩) ∧
    (∀ (width : Nat) (line : Text), BarAt width line →
      ∃ source text, line = source ++ '|' :: text ∧ Utf8.size source = width) ∧
    ∀ (source : Source) (before : List Cursor.Step) (step : Cursor.Step),
      ((Cursor.perform step (Cursor.run before { source })).1 = some .slotOccupied ↔
        (∃ line, step = .handBack line) ∧
          (Cursor.run before { source }).slot.isEmpty = false) ∧
      ((Cursor.perform step (Cursor.run before { source })).1 = some .slotOccupied →
        (Cursor.perform step (Cursor.run before { source })).2 =
          Cursor.run before { source }) := by
  refine ⟨?_, fun width line h => barAt_iff_exists.mp h, ?_⟩
  · intro dialect source calls entry line hmem
    rcases hmem with hmem | hmem
    · exact Reader.reply_ne_slotOccupied hmem line
    · -- A stream decoder gives the replies of a reader.
      rw [← StreamDecoder.ofReader_ofSource, StreamDecoder.transcript_ofReader
        (Reader.fieldsFromScan_ofSource dialect source)] at hmem
      exact Reader.reply_ne_slotOccupied hmem line
  · intro source before step
    exact ⟨Cursor.perform_eq_slotOccupied_iff step _, Cursor.perform_of_slotOccupied⟩

/-- Two lines handed back one after the other: the second one is refused, and the first one still
waits. A reader of the same bytes hands back the start of the second record, to an empty slot. -/
theorem second_line_handed_back :
    (Cursor.perform (.handBack ['b'])
        (Cursor.run [.mark, .handBack ['a']] { source := [.chunk 0x7C []] })) =
      (some .slotOccupied, ⟨[.chunk 0x7C []], ⟨some ['a']⟩, 0⟩) ∧
    (∀ entry ∈ ((Reader.ofSource (.fixedWidth 0) [.chunk 0x7C [0x0A, 0x7C]]).transcript
      [.item, .item]).1, entry.reply ≠ .failed ⟨2, .slotOccupied⟩) ∧
    ∃ source text, ['é', '|', 'a'] = source ++ '|' :: text ∧ Utf8.size source = 2 := by
  obtain ⟨hreplies, hcut, hsteps⟩ := slot_never_overfilled
  refine ⟨?_, fun entry hmem => hreplies _ _ _ entry 2 (.inl hmem), hcut 2 _ (by decide)⟩
  obtain ⟨hiff, hsame⟩ := hsteps [.chunk 0x7C []] [.mark, .handBack ['a']] (.handBack ['b'])
  have hrefused := hiff.mpr ⟨⟨_, rfl⟩, rfl⟩
  exact Prod.ext hrefused (hsame hrefused)

end LinkDump
