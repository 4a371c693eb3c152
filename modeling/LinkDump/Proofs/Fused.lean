import LinkDump.Proofs.FieldCalls

/-! # Sessions after their end
A reply that there is no further link, or that something went wrong, is the last one of a session to
say anything new. The step: whichever call gives such a reply, and from whatever phase, leaves the
reader done. The run: a reader that is done answers every further session from what it has, on any
source, so that the bytes a source would still deliver are never asked for. A stream decoder in the
state of such a reader does the same. -/

namespace LinkDump

namespace Reply

/-- Whether a reply ends the reading: there is no further link, or something went wrong. -/
def isLast : Reply → Bool
  | nothing | failed _ => true
  | fields _ | link _ => false

/-- Whether a reply is an error. -/
def isError : Reply → Bool
  | failed _ => true
  | fields _ | link _ | nothing => false

/-- An error is the last reply of a session. -/
theorem isLast_of_isError {reply : Reply} (h : reply.isError) : reply.isLast := by
  cases reply with
  | failed e => rfl
  | fields known | link found | nothing => cases h

/-- After the end there are no errors. -/
@[simp] theorem isError_afterEnd (known : List MetaField) (c : Call) :
    (afterEnd known c).isError = false := by
  cases c <;> rfl

end Reply

/-- Whether a call was answered with an error. -/
def Entry.isError (entry : Entry) : Bool := entry.reply.isError

/-! ## Readers -/

namespace Reader

variable {reader : Reader} {c : Call}

/-- Nothing is read any more. In place of the source that is there, any other one gives the same:
every call is answered from the known fields, at the same line, and neither the reader nor that
source changes. -/
def Ended (reader : Reader) : Prop := ∀ (other : Source) (calls : List Call),
  (reader.onSource other).transcript calls =
    (calls.map fun c => ⟨Reply.afterEnd reader.fields c, reader.line⟩, reader.onSource other)

/-- Which source it is that a reader is done with makes no difference. -/
theorem ended_of_done (h : reader.phase = .done) : reader.Ended := by
  intro other calls
  have hdone : (reader.onSource other).phase = .done := h
  exact transcript_of_done hdone calls

/-- One call: if its reply ends the reading, the reader is done. -/
theorem phase_call_of_isLast (h : (reader.call c).1.isLast) : (reader.call c).2.phase = .done := by
  have hlink : (reader.call .link).1.isLast → (reader.call .link).2.phase = .done := by
    intro hlast
    have hphase := reader.phase_readLink
    rw [call] at hlast ⊢
    cases hread : reader.readLink with
    | error e reader' =>
      rw [hread] at hphase
      exact hphase
    | ok found reader' =>
      rw [hread] at hphase hlast
      cases found with
      | none => exact hphase
      | some link => cases hlast
  cases c with
  | fields =>
    rw [call] at h ⊢
    cases hread : reader.readFields with
    | error e reader' => exact phase_of_readFields hread
    | ok fields reader' =>
      rw [hread] at h
      cases h
  | link => exact hlink h
  | item =>
    rw [call_item] at h ⊢
    exact hlink h

/-- Any number of calls: at most one of them gives an error, since none does after it. -/
theorem countP_isError_le_one (reader : Reader) (calls : List Call) :
    (reader.transcript calls).1.countP Entry.isError ≤ 1 := by
  induction calls generalizing reader with
  | nil => exact Nat.zero_le 1
  | cons c calls ih =>
    have hrest := ih (reader.call c).2
    rw [transcript] at hrest ⊢
    rw [transcript_cons, List.countP_cons]
    by_cases herror : (reader.call c).1.isError
    · have hdone := phase_call_of_isLast (Reply.isLast_of_isError herror)
      have hnone : (LinkDump.transcript call line calls (reader.call c).2).1.countP
          Entry.isError = 0 := by
        rw [← transcript, transcript_of_done hdone, List.countP_map, List.countP_eq_zero]
        intro c' _
        simp [Entry.isError]
      rw [hnone]
      split
      · exact Nat.le_refl 1
      · exact Nat.zero_le 1
    · have hother : Entry.isError ⟨(reader.call c).1, (reader.call c).2.line⟩ = false := by
        simpa [Entry.isError] using herror
      rw [hother]
      exact hrest

end Reader

/-! ## Stream decoders -/

namespace StreamDecoder

variable {reader : Reader}

/-- The decoder as it is, but with another source to go on with. -/
def onSource (source : Source) (decoder : StreamDecoder) : StreamDecoder := { decoder with source }

/-- Nothing is read any more, on any source. -/
def Ended (decoder : StreamDecoder) : Prop := ∀ (other : Source) (calls : List Call),
  (decoder.onSource other).transcript calls =
    (calls.map fun c => ⟨Reply.afterEnd decoder.fields c, decoder.line⟩, decoder.onSource other)

/-- A stream decoder in the state of a reader that is done has ended as well. -/
theorem ended_ofReader (h : reader.phase = .done) : (ofReader reader).Ended := by
  intro other calls
  have hscan : (reader.onSource other).FieldsFromScan := by
    intro hheader
    cases h.symm.trans hheader
  have hrun := transcript_ofReader hscan calls
  rw [Reader.ended_of_done h other calls] at hrun
  exact hrun

/-- After any calls the fields that a reader has are those of its scan. -/
theorem fieldsFromScan_transcript (h : reader.FieldsFromScan) (calls : List Call) :
    (reader.transcript calls).2.FieldsFromScan := by
  induction calls generalizing reader with
  | nil => exact h
  | cons c calls ih =>
    apply ih
    intro hheader
    exact absurd hheader (reader.phase_call c)

end StreamDecoder

/-! ## Sessions -/

/-- Readers are fused, and so are stream decoders. For every source, every dialect and every
session: once a call has found no further link, or has given an error, nothing is read any more.
Every later call for a link finds none, at the same line, and the source is neither looked at nor
consumed, whatever it would still deliver. So there is at most one error in a session. -/
theorem sessions_end_for_good (dialect : Dialect) (source : Source) :
    (∀ (before : List Call) (c : Call),
      let reader := ((Reader.ofSource dialect source).transcript before).2
      (reader.call c).1.isLast → (reader.call c).2.Ended) ∧
    (∀ (before : List Call) (c : Call),
      let decoder := ((StreamDecoder.ofSource dialect source).transcript before).2
      (decoder.call c).1.isLast → (decoder.call c).2.Ended) ∧
    ∀ calls : List Call,
      ((Reader.ofSource dialect source).transcript calls).1.countP Entry.isError ≤ 1 ∧
      ((StreamDecoder.ofSource dialect source).transcript calls).1.countP Entry.isError ≤ 1 := by
  have hstart := Reader.fieldsFromScan_ofSource dialect source
  refine ⟨?_, ?_, ?_⟩
  · intro before c reader hlast
    exact Reader.ended_of_done (Reader.phase_call_of_isLast hlast)
  · -- The decoder is in the state of a reader, before the call and after it.
    intro before c decoder hlast
    have hstate : decoder =
        StreamDecoder.ofReader ((Reader.ofSource dialect source).transcript before).2 :=
      congrArg Prod.snd (StreamDecoder.transcript_ofReader hstart before)
    rw [hstate, StreamDecoder.call_ofReader
      (StreamDecoder.fieldsFromScan_transcript hstart before)] at hlast ⊢
    exact StreamDecoder.ended_ofReader (Reader.phase_call_of_isLast hlast)
  · intro calls
    have hentries := congrArg Prod.fst (StreamDecoder.transcript_ofReader hstart calls)
    rw [StreamDecoder.ofReader_ofSource] at hentries
    rw [hentries]
    exact ⟨Reader.countP_isError_le_one _ calls, Reader.countP_isError_le_one _ calls⟩

/-- A lull is taken for the end, and a failure is the only error, although more lines would follow.
-/
theorem sessions_end_before_more_lines :
    ((Reader.ofSource .variableWidth
          [.chunk 0x61 [0x7C, 0x0A], .lull, .chunk 0x62 [0x7C]]).transcript
            [.fields, .link, .item]).1.getLast? = some ⟨.nothing, 1⟩ ∧
    ((Reader.ofSource .variableWidth
          [.chunk 0x61 [0x7C, 0x0A], .lull, .chunk 0x62 [0x7C]]).transcript
            [.fields, .link, .item]).2.Ended ∧
    ((StreamDecoder.ofSource (.fixedWidth 1)
          [.chunk 0x61 [0x7C, 0x0A], .failure ['i', 'o'], .chunk 0x62 [0x7C]]).transcript
            [.link]).1 = [⟨.failed ⟨1, .input ['i', 'o']⟩, 1⟩] ∧
    ((StreamDecoder.ofSource (.fixedWidth 1)
          [.chunk 0x61 [0x7C, 0x0A], .failure ['i', 'o'], .chunk 0x62 [0x7C]]).transcript
            [.link]).2.Ended := by
  refine ⟨by decide +kernel, ?_, by decide +kernel, ?_⟩
  · exact (sessions_end_for_good .variableWidth
      [.chunk 0x61 [0x7C, 0x0A], .lull, .chunk 0x62 [0x7C]]).1 [.fields, .link] .item
        (by decide +kernel)
  · exact (sessions_end_for_good (.fixedWidth 1)
      [.chunk 0x61 [0x7C, 0x0A], .failure ['i', 'o'], .chunk 0x62 [0x7C]]).2.1 [] .link
        (by decide +kernel)

end LinkDump
