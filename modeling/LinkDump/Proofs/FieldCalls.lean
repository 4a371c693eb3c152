import LinkDump.Proofs.HeaderScan
import LinkDump.Proofs.StreamAgreement

/-! # Calls for the fields
A call for the meta fields is transparent. The first call of a session scans the header, whatever is
called; from then on the reader knows the fields that were found, and a call for them gives them and
does nothing else, on any source. So two sessions that differ only in such calls read the same. If
the header fails, the first call gives the error, and no other call does. -/

namespace LinkDump

/-- Whether a call reads on: one for a link or an item does, one for the meta fields does not. -/
def Call.readsOn : Call → Bool
  | .fields => false
  | .link | .item => true

/-- A call is for the fields, or it reads on. -/
theorem Call.eq_fields_or_readsOn (c : Call) : c = .fields ∨ c.readsOn := by
  cases c with
  | fields => exact .inl rfl
  | link | item => exact .inr rfl

/-- The meta fields that a scan finds in front of a source: if it fails, those that come before. -/
def Source.headerFields (source : Source) : List MetaField :=
  (Cursor.scanHeader { source }).1.fields

namespace Reader

/-- The reader as it is, but with another source to read on from. -/
def onSource (source : Source) (reader : Reader) : Reader :=
  { reader with cursor := { reader.cursor with source } }

/-- The entries of a session for the calls that read on. -/
def reads (calls : List Call) (reader : Reader) : List Entry :=
  ((calls.zip (reader.transcript calls).1).filter fun p => p.1.readsOn).map Prod.snd

variable {reader reader' : Reader} {known fields : List MetaField} {c : Call} {calls : List Call}

/-! ## What is known after the scan -/

/-- The header has been scanned, and these are the fields that were found. -/
structure Knows (known : List MetaField) (reader : Reader) : Prop where
  scanned : reader.phase ≠ .header
  fields_eq : reader.fields = known

/-- What is known has nothing to do with what is still to be read. -/
theorem Knows.onSource (h : reader.Knows known) (source : Source) :
    (reader.onSource source).Knows known := ⟨h.scanned, h.fields_eq⟩

/-- Known fields are read without a scan. -/
theorem Knows.readFields (h : reader.Knows known) : reader.readFields = .ok known reader := by
  rw [Reader.readFields, h.fields_eq]
  split
  next hphase => exact absurd hphase h.scanned
  · rfl

/-- Known fields are given, and nothing else is done. -/
theorem Knows.call_fields (h : reader.Knows known) :
    reader.call .fields = (.fields known, reader) := by
  rw [call, h.readFields]
  rfl

/-- Reading a link, the end and an error leave the fields alone. -/
theorem Knows.call_link (h : reader.Knows known) : (reader.call .link).2.Knows known := by
  refine ⟨reader.phase_call_link, ?_⟩
  rw [call, readLink, h.readFields]
  simp only
  split
  · exact h.fields_eq
  · rcases reader.cursor.readLink reader.dialect with ⟨_ | link, cursor⟩ | ⟨cause, cursor⟩
    · exact h.fields_eq
    · exact h.fields_eq
    · exact h.fields_eq

/-- One call: what is known stays known. -/
theorem Knows.call (h : reader.Knows known) (c : Call) : (reader.call c).2.Knows known := by
  cases c with
  | fields =>
    rw [h.call_fields]
    exact h
  | link => exact h.call_link
  | item =>
    rw [call_item]
    exact h.call_link

/-- Any number of calls: what is known stays known. -/
theorem Knows.transcript (h : reader.Knows known) (calls : List Call) :
    (reader.transcript calls).2.Knows known := by
  induction calls generalizing reader with
  | nil => exact h
  | cons c calls ih => exact ih (h.call c)

/-! ## The first call -/

/-- When the scan succeeds, a first call that reads on is answered as if the fields had been asked
for before it. -/
theorem call_of_readFields_eq_ok (h : reader.readFields = .ok fields reader')
    (hphase : reader'.phase = .links) (hc : c.readsOn) : reader.call c = reader'.call c := by
  have hlink : reader.call .link = reader'.call .link := by
    rw [call, call, readLink_of_readFields_eq_ok h hphase]
  cases c with
  | fields => cases hc
  | link => exact hlink
  | item => rw [call_item, call_item, hlink]

section Scan

variable (dialect : Dialect) {source : Source} {cursor : Cursor} {cause : LineError}

/-- A scan that succeeds gives its fields, and links come next. -/
theorem readFields_of_scanHeader_eq_ok (h : (Cursor.scanHeader { source }).2 = .ok () cursor) :
    (ofSource dialect source).readFields =
      .ok source.headerFields ⟨cursor, dialect, source.headerFields, .links⟩ := by
  have hscan : Cursor.scanHeader { source } =
      ((Cursor.scanHeader { source }).1, .ok () cursor) := Prod.ext rfl h
  simp only [readFields, ofSource]
  rw [hscan]
  rfl

/-- A scan that fails gives its error, keeps the fields before it, and ends the reading. -/
theorem readFields_of_scanHeader_eq_error
    (h : (Cursor.scanHeader { source }).2 = .error cause cursor) :
    (ofSource dialect source).readFields =
      .error ⟨cursor.line, cause⟩ ⟨cursor, dialect, source.headerFields, .done⟩ := by
  have hscan : Cursor.scanHeader { source } =
      ((Cursor.scanHeader { source }).1, .error cause cursor) := Prod.ext rfl h
  simp only [readFields, ofSource]
  rw [hscan]
  rfl

/-- After the first call, whatever it is and whether it fails or not, the fields are known. -/
theorem knows_call_ofSource (source : Source) (c : Call) :
    ((ofSource dialect source).call c).2.Knows source.headerFields := by
  cases hscan : (Cursor.scanHeader { source }).2 with
  | ok value cursor =>
    have hfields := readFields_of_scanHeader_eq_ok dialect hscan
    have hknows : Knows source.headerFields ⟨cursor, dialect, source.headerFields, .links⟩ :=
      ⟨Phase.noConfusion, rfl⟩
    obtain rfl | hc := c.eq_fields_or_readsOn
    · rw [call, hfields]
      exact hknows
    · rw [call_of_readFields_eq_ok hfields rfl hc]
      exact hknows.call c
  | error cause cursor =>
    rw [call_of_readFields_eq_error (readFields_of_scanHeader_eq_error dialect hscan)]
    exact ⟨Phase.noConfusion, rfl⟩

end Scan

/-! ## Sessions without the calls for the fields -/

/-- A call for the fields leaves no entry among those that read on. -/
theorem reads_fields_cons (reader : Reader) (calls : List Call) :
    reader.reads (.fields :: calls) = (reader.call .fields).2.reads calls := rfl

/-- A call that reads on leaves its entry in front of the others. -/
theorem reads_cons_of_readsOn (reader : Reader) (hc : c.readsOn) (calls : List Call) :
    reader.reads (c :: calls) =
      ⟨(reader.call c).1, (reader.call c).2.line⟩ :: (reader.call c).2.reads calls := by
  rw [reads, transcript, transcript_cons, List.zip_cons_cons, List.filter_cons, if_pos hc]
  rfl

/-- Once the fields are known, the calls for them may be left out. -/
theorem Knows.reads_eq (h : reader.Knows known) (calls : List Call) :
    reader.reads calls = (reader.transcript (calls.filter Call.readsOn)).1 := by
  induction calls generalizing reader with
  | nil => rfl
  | cons c calls ih =>
    obtain rfl | hc := c.eq_fields_or_readsOn
    · rw [reads_fields_cons, h.call_fields, ih h]
      rfl
    · rw [reads_cons_of_readsOn reader hc, List.filter_cons_of_pos hc, ih (h.call c)]
      rfl

/-- Calls that all read on are answered the same, whether the header has been scanned before them or
is scanned by the first of them. -/
theorem transcript_of_readFields_eq_ok (h : reader.readFields = .ok fields reader')
    (hphase : reader'.phase = .links) (hcalls : ∀ c ∈ calls, c.readsOn) :
    (reader.transcript calls).1 = (reader'.transcript calls).1 := by
  cases calls with
  | nil => rfl
  | cons c calls =>
    have hcall := call_of_readFields_eq_ok h hphase (hcalls c List.mem_cons_self)
    rw [transcript, transcript, transcript_cons, transcript_cons, hcall]

/-- When the scan succeeds, the calls for the fields may be left out, the first call included. -/
theorem reads_of_readFields_eq_ok (h : reader.readFields = .ok fields reader')
    (hphase : reader'.phase = .links) (hknows : reader'.Knows known) (calls : List Call) :
    reader.reads calls = (reader.transcript (calls.filter Call.readsOn)).1 := by
  have hfilter : ∀ c ∈ calls.filter Call.readsOn, c.readsOn := by
    intro c hc
    exact (List.mem_filter.mp hc).2
  rw [transcript_of_readFields_eq_ok h hphase hfilter]
  cases calls with
  | nil => rfl
  | cons c calls =>
    obtain rfl | hc := c.eq_fields_or_readsOn
    · have hfirst : (reader.call .fields).2 = reader' := by
        rw [call, h]
        rfl
      rw [reads_fields_cons, hfirst, hknows.reads_eq]
      rfl
    · rw [reads_cons_of_readsOn reader hc, call_of_readFields_eq_ok h hphase hc,
        ← reads_cons_of_readsOn reader' hc, hknows.reads_eq]

/-- A failing header: its error is the reply to the first call, and to no other. -/
theorem transcript_of_readFields_eq_error {e : DecodeError}
    (h : reader.readFields = .error e reader') (hphase : reader'.phase = .done) (c : Call)
    (calls : List Call) :
    (reader.transcript (c :: calls)).1 = ⟨.failed e, reader'.line⟩ ::
      calls.map fun c => ⟨Reply.afterEnd reader'.fields c, reader'.line⟩ := by
  rw [transcript, transcript_cons, call_of_readFields_eq_error h, ← transcript,
    transcript_of_done hphase]

/-- Calls for the fields are idempotent and transparent, for every source, every dialect and every
session. From the second call on, such a call gives the fields that the scan has found, even if it
failed, and leaves the reader as it is; it does so on any other source too, so it does not look at
the one that is there. If the scan succeeds, a first call for the fields gives the same ones, and
the calls that read on give what they give in the session without any call for the fields. If the
scan fails, the first call of either kind gives the error; from then on calls for the fields give
those in front of it, and no call gives a link or the error. -/
theorem call_fields_transparent (dialect : Dialect) (source : Source) :
    (∀ first calls,
      let reader := ((ofSource dialect source).transcript (first :: calls)).2
      reader.call .fields = (.fields source.headerFields, reader) ∧
        ∀ other, (reader.onSource other).call .fields =
          (.fields source.headerFields, reader.onSource other)) ∧
    (∀ cursor, (Cursor.scanHeader { source }).2 = .ok () cursor →
      ((ofSource dialect source).call .fields).1 = .fields source.headerFields ∧
        ∀ calls, (ofSource dialect source).reads calls =
          ((ofSource dialect source).transcript (calls.filter Call.readsOn)).1) ∧
    (∀ cause cursor, (Cursor.scanHeader { source }).2 = .error cause cursor → ∀ first calls,
      ((ofSource dialect source).transcript (first :: calls)).1 =
        ⟨.failed ⟨cursor.line, cause⟩, cursor.line⟩ ::
          calls.map fun c => ⟨Reply.afterEnd source.headerFields c, cursor.line⟩) := by
  refine ⟨?_, ?_, ?_⟩
  · intro first calls
    have hknows : Knows source.headerFields
        ((ofSource dialect source).transcript (first :: calls)).2 :=
      (knows_call_ofSource dialect source first).transcript calls
    exact ⟨hknows.call_fields, fun other => (hknows.onSource other).call_fields⟩
  · intro cursor hscan
    have hfields := readFields_of_scanHeader_eq_ok dialect hscan
    constructor
    · rw [call, hfields]
      rfl
    · intro calls
      exact reads_of_readFields_eq_ok hfields rfl ⟨Phase.noConfusion, rfl⟩ calls
  · intro cause cursor hscan first calls
    exact transcript_of_readFields_eq_error (readFields_of_scanHeader_eq_error dialect hscan) rfl
      first calls

/-- Behind `#A:1` and a blank line, two calls for the fields make no difference to the three that
read on. Behind `#A:1` and the refused `#B`, the first call fails, and the field `A` is known. -/
theorem call_fields_transparent_of_two_headers :
    (ofSource (.fixedWidth 1) [.chunk 0x23 [0x41, 0x3A, 0x31, 0x0A, 0x0A],
        .chunk 0x61 [0x7C, 0x62]]).reads [.link, .fields, .item, .fields, .link] =
      ((ofSource (.fixedWidth 1) [.chunk 0x23 [0x41, 0x3A, 0x31, 0x0A, 0x0A],
        .chunk 0x61 [0x7C, 0x62]]).transcript [.link, .item, .link]).1 ∧
    ((ofSource .rfc [.chunk 0x23 [0x41, 0x3A, 0x31, 0x0A, 0x23, 0x42]]).transcript
        [.item, .fields, .link]).1 =
      [⟨.failed ⟨2, .metaMissingValue ['#', 'B']⟩, 2⟩, ⟨.fields [⟨['A'], ['1']⟩], 2⟩,
        ⟨.nothing, 2⟩] := by
  constructor
  · have hchunks : Source.AllChunks
        [.chunk 0x23 [0x41, 0x3A, 0x31, 0x0A, 0x0A], .chunk 0x61 [0x7C, 0x62]] := by
      simp
    have hfields : (metaLines (dumpTexts (Source.bytes
        [.chunk 0x23 [0x41, 0x3A, 0x31, 0x0A, 0x0A], .chunk 0x61 [0x7C, 0x62]]))).map fieldOfLine =
          [⟨['A'], ['1']⟩].map .ok := by
      decide
    obtain ⟨part, cursor, lines, hscan, -⟩ := Cursor.scanHeader_of_accepted hchunks hfields
    exact ((call_fields_transparent (.fixedWidth 1) _).2.1 cursor (congrArg Prod.snd hscan)).2
      [.link, .fields, .item, .fields, .link]
  · have hchunks : Source.AllChunks [.chunk 0x23 [0x41, 0x3A, 0x31, 0x0A, 0x23, 0x42]] := by
      simp
    have hlines : metaLines (dumpTexts (Source.bytes
        [.chunk 0x23 [0x41, 0x3A, 0x31, 0x0A, 0x23, 0x42]])) =
          [['#', 'A', ':', '1', '\n']] ++ ['#', 'B'] :: [] := by
      decide
    have hbefore : [['#', 'A', ':', '1', '\n']].map fieldOfLine = [⟨['A'], ['1']⟩].map .ok := by
      decide
    have hrefused : fieldOfLine ['#', 'B'] = .error (.metaMissingValue ['#', 'B']) := by
      decide
    obtain ⟨cursor, hscan, hline⟩ :=
      Cursor.scanHeader_of_refused hchunks hlines hbefore hrefused
    have hknown : Source.headerFields [.chunk 0x23 [0x41, 0x3A, 0x31, 0x0A, 0x23, 0x42]] =
        [⟨['A'], ['1']⟩] := by
      rw [Source.headerFields, hscan]
    rw [(call_fields_transparent .rfc _).2.2 _ cursor (congrArg Prod.snd hscan), hknown, hline]
    rfl

end Reader

end LinkDump
