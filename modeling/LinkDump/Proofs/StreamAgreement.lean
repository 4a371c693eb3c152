import LinkDump.Proofs.Finished
import LinkDump.Proofs.StreamRuns
import LinkDump.Session

/-! # Agreement of stream decoders with readers
On the same source a stream decoder and a reader answer every call alike, in every session. The step
is one call: it gives the same reply, and leaves the decoder in the state of the reader after it. It
needs of the state that there are no fields before the header has been scanned, since a decoder adds
to the fields that it has while a reader takes them from its scan. No call goes back to that
phase. -/

namespace LinkDump

namespace Reply

variable {σ τ : Type} (f : σ → τ)

/-- A reply does not depend on how the state is seen. -/
theorem ofFields_onState (result : EStateM.Result DecodeError σ (List MetaField)) :
    ofFields (onState f result) = ((ofFields result).1, f (ofFields result).2) := by
  cases result <;> rfl

/-- A reply does not depend on how the state is seen. -/
theorem ofLink_onState (result : EStateM.Result DecodeError σ (Option Link)) :
    ofLink (onState f result) = ((ofLink result).1, f (ofLink result).2) := by
  rcases result with ⟨_ | link, state⟩ | ⟨e, state⟩ <;> rfl

end Reply

/-! ## Phases of a reader -/

namespace Reader

variable (reader : Reader)

/-- There are no fields before the header has been scanned. -/
def FieldsFromScan : Prop := reader.phase = .header → reader.fields = []

/-- At the start there are no fields. -/
theorem fieldsFromScan_ofSource (dialect : Dialect) (source : Source) :
    (ofSource dialect source).FieldsFromScan := by
  intro _
  rfl

/-- Whether it fails or not, a header is scanned at most once. -/
theorem phase_call_fields : (reader.call .fields).2.phase ≠ .header := by
  rw [call, readFields]
  split
  · rcases reader.cursor.scanHeader with ⟨scanner, ⟨_, cursor⟩ | ⟨cause, cursor⟩⟩
    · exact Phase.noConfusion
    · exact Phase.noConfusion
  next hphase => exact hphase

/-- Reading a link scans the header first, and never goes back before it. -/
theorem phase_call_link : (reader.call .link).2.phase ≠ .header := by
  have hfields := reader.phase_call_fields
  simp only [call] at hfields ⊢
  rw [readLink]
  cases hread : reader.readFields with
  | error e reader' =>
    rw [hread] at hfields
    exact hfields
  | ok fields reader' =>
    rw [hread] at hfields
    simp only
    split
    next hdone =>
      intro hheader
      cases hdone.symm.trans hheader
    · rcases reader'.cursor.readLink reader'.dialect with ⟨_ | link, cursor⟩ | ⟨cause, cursor⟩
      · exact Phase.noConfusion
      · exact hfields
      · exact Phase.noConfusion

/-- After any call the header has been scanned. -/
theorem phase_call (c : Call) : (reader.call c).2.phase ≠ .header := by
  cases c with
  | fields => exact reader.phase_call_fields
  | link => exact reader.phase_call_link
  | item =>
    rw [call_item]
    exact reader.phase_call_link

end Reader

/-! ## Calls -/

namespace StreamDecoder

/-- A call for an item is answered like a call for a link. -/
theorem call_item (decoder : StreamDecoder) : decoder.call .item = decoder.call .link := by
  rw [call, call, next]
  rcases decoder.readLink with ⟨_ | link, decoder'⟩ | ⟨e, decoder'⟩ <;> rfl

variable {reader : Reader}

/-- The fields are scanned alike, and are the ones that the scan has found. -/
theorem readFields_ofReader (h : reader.FieldsFromScan) :
    (ofReader reader).readFields = onState ofReader reader.readFields := by
  obtain ⟨cursor, dialect, fields, phase⟩ := reader
  cases phase with
  | header =>
    -- The run starts from the decoder's own fields, so there must be none.
    obtain rfl : fields = [] := h rfl
    simp only [readFields, phase_ofReader, Reader.readFields]
    rw [runHeader_start]
    rcases cursor.scanHeader with ⟨scanner, ⟨_, cursor'⟩ | ⟨cause, cursor'⟩⟩
    · rfl
    · rfl
  | links => rfl
  | done => rfl

/-- A link is read alike, once the fields are known. -/
theorem readLink_ofReader (h : reader.FieldsFromScan) :
    (ofReader reader).readLink = onState ofReader reader.readLink := by
  rw [readLink, Reader.readLink, readFields_ofReader h]
  rcases reader.readFields with ⟨fields, reader'⟩ | ⟨e, reader'⟩
  · obtain ⟨cursor, dialect, fields, phase⟩ := reader'
    have hrun := runLink_firstLine cursor dialect fields phase
    simp only [onState_ok]
    cases phase with
    | done => rfl
    | header | links =>
      simp only [phase_ofReader, hrun]
      rcases cursor.readLink dialect with ⟨_ | link, cursor'⟩ | ⟨cause, cursor'⟩ <;> rfl
  · rfl

/-- One call on a decoder in the state of a reader: the reply is the same, and so is the state after
it. -/
theorem call_ofReader (h : reader.FieldsFromScan) (c : Call) :
    (ofReader reader).call c = ((reader.call c).1, ofReader (reader.call c).2) := by
  have hlink : (ofReader reader).call .link =
      ((reader.call .link).1, ofReader (reader.call .link).2) := by
    rw [call, readLink_ofReader h, Reply.ofLink_onState]
    rfl
  cases c with
  | fields =>
    rw [call, readFields_ofReader h, Reply.ofFields_onState]
    rfl
  | link => exact hlink
  | item => rw [call_item, Reader.call_item, hlink]

/-- Any number of calls on a decoder in the state of a reader. -/
theorem transcript_ofReader (h : reader.FieldsFromScan) (calls : List Call) :
    (ofReader reader).transcript calls =
      ((reader.transcript calls).1, ofReader (reader.transcript calls).2) := by
  induction calls generalizing reader with
  | nil => rfl
  | cons c calls ih =>
    have hnext : (reader.call c).2.FieldsFromScan := by
      intro hheader
      exact absurd hheader (reader.phase_call c)
    have hrun := ih hnext
    rw [transcript, Reader.transcript] at hrun ⊢
    rw [transcript_cons, transcript_cons, call_ofReader h, hrun]
    rfl

/-- A stream decoder and a reader of the same source agree in every session: whatever the source
does, whatever the dialect, and whatever is called in whatever order, each call gives the same reply
at the same line, and at the end the decoder is in the state of the reader. -/
theorem transcript_ofSource (dialect : Dialect) (source : Source) (calls : List Call) :
    (ofSource dialect source).transcript calls =
      (((Reader.ofSource dialect source).transcript calls).1,
        ofReader ((Reader.ofSource dialect source).transcript calls).2) := by
  rw [← ofReader_ofSource]
  exact transcript_ofReader (Reader.fieldsFromScan_ofSource dialect source) calls

/-! ## Decoding to the end -/

/-- All links are the first one and those that follow it, up to the end or an error. -/
theorem readLinks_eq (decoder : StreamDecoder) :
    decoder.readLinks = match decoder.readLink with
      | .ok none decoder => ([], none, decoder)
      | .error e decoder => ([], some e, decoder)
      | .ok (some link) decoder => (link :: decoder.readLinks.1, decoder.readLinks.2) := by
  rw [readLinks]
  split
  next hread => rw [hread]
  next hread => rw [hread]
  next hread => rw [hread]

/-- A decoder in the state of a reader reads the same links up to the same end. -/
theorem readLinks_ofReader (h : reader.FieldsFromScan) :
    (ofReader reader).readLinks =
      (reader.readLinks.1, reader.readLinks.2.1, ofReader reader.readLinks.2.2) := by
  fun_induction Reader.readLinks reader with
  | case1 reader reader₁ hread =>
    rw [readLinks_eq, readLink_ofReader h, hread]
    rfl
  | case2 reader e reader₁ hread =>
    rw [readLinks_eq, readLink_ofReader h, hread]
    rfl
  | case3 reader link reader₁ hread links failure reader₂ hrest ih =>
    -- Reading a link has scanned the header, so the fields are those of the scan.
    have hphase := reader.phase_call_link
    rw [Reader.call, hread] at hphase
    have hnext : reader₁.FieldsFromScan := fun hheader => absurd hheader hphase
    rw [readLinks_eq, readLink_ofReader h, hread]
    simp only [onState_ok]
    rw [ih hnext, hrest]

/-- Decoding in turns to the end gives what decoding in one go gives: the same fields, the same
links, the same failure if there is one, and as many lines. -/
theorem finish_ofSource (dialect : Dialect) (source : Source) :
    (ofSource dialect source).finish = decode dialect source := by
  rw [finish, ← ofReader_ofSource,
    readLinks_ofReader (Reader.fieldsFromScan_ofSource dialect source)]
  rfl

end StreamDecoder

end LinkDump
