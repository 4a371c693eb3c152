import LinkDump.Proofs.Chunks
import LinkDump.Proofs.Finished

/-! # Causes of errors
Every error of a decoder is the fault of its input: a line that is refused, or a failure of the
source. What the decoder does itself never goes wrong; above all it hands no line back while another
one waits. Each operation has one lemma, which says so of its answer and of the failures that the
source then has left, `Accounted`. -/

namespace LinkDump

/-- The reasons of the failures that a source is still to give, in order. -/
def Source.failures : Source → List Text
  | [] => []
  | .chunk _ _ :: source => failures source
  | .failure reason :: source => reason :: failures source
  | .lull :: source => failures source

/-- Bytes that are put in front of a source do not fail. -/
@[simp] theorem Source.failures_push (bs : Bytes) (source : Source) :
    failures (push bs source) = failures source := by
  cases bs <;> rfl

/-- Chunks alone do not fail. -/
theorem Source.AllChunks.failures_eq {source : Source} (h : source.AllChunks) :
    source.failures = [] := by
  induction source with
  | nil => rfl
  | cons piece source ih =>
    obtain ⟨b, rest, rfl⟩ := h piece List.mem_cons_self
    exact ih (allChunks_chunk.mp h)

/-- An error that the input is to blame for: a line is refused, or it is one of the failures of the
source. -/
def LineError.FaultOf (failures : List Text) (e : LineError) : Prop :=
  e.line?.isSome ∨ ∃ reason ∈ failures, e = .input reason

namespace LineError.FaultOf

variable {failures failures' : List Text} {e : LineError}

/-- What is the fault of some failures is the fault of more failures. -/
theorem mono (h : e.FaultOf failures) (hsub : failures ⊆ failures') : e.FaultOf failures' :=
  h.imp_right fun ⟨reason, hmem, he⟩ => ⟨reason, hsub hmem, he⟩

/-- No input makes a decoder hand back a second line. -/
theorem ne_slotOccupied (h : e.FaultOf failures) : e ≠ .slotOccupied := by
  rintro rfl
  rcases h with hline | ⟨reason, -, he⟩
  · cases hline
  · cases he

/-- Where the source does not fail, a line is refused. -/
theorem isSome_line? (h : e.FaultOf []) : e.line?.isSome := h.resolve_right (by simp)

end LineError.FaultOf

/-- An answer that is an error only by fault of the input, and after which the last ones of the
failures are left. -/
inductive Accounted {ε σ α : Type} (cause : ε → LineError) (left : σ → List Text)
    (failures : List Text) : EStateM.Result ε σ α → Prop
  | ok {value : α} {state : σ} (hleft : left state <:+ failures) :
      Accounted cause left failures (.ok value state)
  | error {e : ε} {state : σ} (hfault : (cause e).FaultOf failures)
      (hleft : left state <:+ failures) :
      Accounted cause left failures (.error e state)

namespace Accounted

variable {ε σ α β : Type} {cause : ε → LineError} {left : σ → List Text}
  {failures failures' : List Text} {e : ε} {value : α} {state : σ}

/-- What is accounted for with the last ones of the failures is accounted for with all of them. -/
theorem trans {answer : EStateM.Result ε σ α} (h : Accounted cause left failures answer)
    (hsuffix : failures <:+ failures') : Accounted cause left failures' answer := by
  cases h with
  | ok hleft => exact .ok (hleft.trans hsuffix)
  | error hfault hleft => exact .error (hfault.mono hsuffix.subset) (hleft.trans hsuffix)

/-- After a success the last ones of the failures are left. -/
theorem suffix_of_ok (h : Accounted cause left failures (.ok value state)) :
    left state <:+ failures := by
  cases h with
  | ok hleft => exact hleft

/-- An error that is passed on is still accounted for. -/
theorem pass (h : Accounted cause left failures (.error e state : EStateM.Result ε σ α)) :
    Accounted cause left failures (.error e state : EStateM.Result ε σ β) := by
  cases h with
  | error hfault hleft => exact .error hfault hleft

end Accounted

/-! ## Sources -/

namespace Source

/-- A look fails only with the failure that stands in front. -/
theorem accounted_look (source : Source) :
    Accounted .input failures source.failures source.look := by
  rcases source with _ | ⟨⟨b, rest⟩ | reason | _, source⟩
  · exact .ok List.suffix_rfl
  · exact .ok List.suffix_rfl
  · exact .error (.inr ⟨reason, List.mem_cons_self, rfl⟩) (List.suffix_cons reason _)
  · exact .ok List.suffix_rfl

/-- Reading a line fails only with the first failure that is met. -/
theorem accounted_readLine (source : Source) :
    Accounted .input failures source.failures source.readLine := by
  induction source with
  | nil => exact .ok List.suffix_rfl
  | cons piece source ih =>
    cases piece with
    | lull => exact .ok List.suffix_rfl
    | failure reason =>
      exact .error (.inr ⟨reason, List.mem_cons_self, rfl⟩) (List.suffix_cons reason _)
    | chunk b rest =>
      rw [readLine]
      split
      · refine .ok ?_
        rw [failures_push]
        exact List.suffix_rfl
      · split
        next hread =>
          rw [hread] at ih
          exact .ok ih.suffix_of_ok
        next hread =>
          rw [hread] at ih
          exact ih.pass

/-- The search for a mark fails only with the first failure that is met. -/
theorem accounted_matchMark (matched : Nat) (source : Source) :
    Accounted .input failures source.failures (source.matchMark matched) := by
  induction source generalizing matched with
  | nil => exact .ok List.suffix_rfl
  | cons piece source ih =>
    cases piece with
    | lull =>
      rw [matchMark]
      split
      · exact .ok List.suffix_rfl
      · exact .ok List.suffix_rfl
    | failure reason =>
      rw [matchMark]
      split
      · exact .error (.inr ⟨reason, List.mem_cons_self, rfl⟩) (List.suffix_cons reason _)
      · exact .ok List.suffix_rfl
    | chunk b rest =>
      rw [matchMark]
      split
      · split
        · exact .ok List.suffix_rfl
        · split
          · refine .ok ?_
            rw [failures_push]
            exact List.suffix_rfl
          · exact ih _
      · exact .ok List.suffix_rfl

/-- What is read from a source without failures does not fail, and leaves none. -/
theorem exists_ok_of_accounted {α : Type} {failures' : List Text} {answer : Answer α}
    (h : Accounted .input failures failures' answer) (hnone : failures' = []) :
    ∃ value source, answer = .ok value source ∧ source.failures = [] := by
  subst hnone
  cases h with
  | ok hleft => exact ⟨_, _, rfl, List.suffix_nil.mp hleft⟩
  | error hfault hleft => cases hfault.isSome_line?

end Source

/-! ## Lines that are refused -/

section Refused

variable {line text : Text} {e : LineError}

/-- What refuses fields between bars is the line. -/
theorem Link.isSome_line?_of_ofBars (h : Link.ofBars line = .error e) : e.line?.isSome := by
  rw [Link.ofBars] at h
  split at h <;> cases h
  rfl

/-- What refuses a line for its first bar is the line. -/
theorem Link.isSome_line?_of_ofFirstBar (h : Link.ofFirstBar line = .error e) :
    e.line?.isSome := by
  rw [Link.ofFirstBar] at h
  split at h <;> cases h
  rfl

/-- What refuses the start of a record is the line. -/
theorem FixedRecord.isSome_line?_of_start {width : Nat} (h : start width line = .error e) :
    e.line?.isSome := by
  rw [start] at h
  split at h
  · cases h
  · split at h <;> cases h <;> rfl

/-- What refuses a meta field is the line. -/
theorem MetaField.isSome_line?_of_ofText (h : MetaField.ofText text = .error e) :
    e.line?.isSome := by
  rw [MetaField.ofText] at h
  split at h
  · cases h
    rfl
  · split at h
    · cases h
      rfl
    · split at h <;> cases h
      rfl

/-- What refuses a header line is the line. -/
theorem Scanner.isSome_line?_of_feed {scanner scanner' : Scanner}
    (h : scanner.feed line = (.error e, scanner')) : e.line?.isSome := by
  simp only [feed] at h
  repeat' split at h
  all_goals cases h
  exact MetaField.isSome_line?_of_ofText ‹_›

end Refused

/-! ## Cursors -/

namespace Cursor

/-- The reasons of the failures that the source is still to give. -/
def failures (cursor : Cursor) : List Text := cursor.source.failures

/-- A failure of the source is passed on as an error of the cursor. -/
theorem accounted_of_source {α β : Type} {failures' : List Text} {reason : Text} {source : Source}
    (h : Accounted .input Source.failures failures' (.error reason source : Source.Answer α))
    (slot : Slot) (line : Nat) :
    Accounted id failures failures' (.error (.input reason) ⟨source, slot, line⟩ : Answer β) := by
  cases h with
  | error hfault hleft => exact .error hfault hleft

/-- A read leaves the slot empty, also if it fails. -/
theorem slot_of_nextRawLine {cursor cursor' : Cursor} {line : Option Text}
    (h : cursor.nextRawLine = .ok line cursor') : cursor'.slot = .empty := by
  obtain ⟨source, ⟨held⟩, n⟩ := cursor
  cases held with
  | some text =>
    cases h
    rfl
  | none =>
    simp only [nextRawLine, Slot.take] at h
    split at h <;> cases h <;> rfl

/-- A line that is handed back to an empty slot is accepted. -/
theorem accounted_pushBack {cursor : Cursor} (h : cursor.slot = .empty) (line : Text) :
    Accounted id failures cursor.failures (cursor.pushBack line) := by
  rw [pushBack, h, Slot.put_empty]
  exact .ok List.suffix_rfl

/-- Reading a line with its line break fails only by fault of the input. -/
theorem accounted_nextRawLine (cursor : Cursor) :
    Accounted id failures cursor.failures cursor.nextRawLine := by
  obtain ⟨source, ⟨held⟩, n⟩ := cursor
  cases held with
  | some text => exact .ok List.suffix_rfl
  | none =>
    have hsource := source.accounted_readLine
    simp only [nextRawLine, Slot.take]
    split
    next hread => exact accounted_of_source (hread ▸ hsource) .empty n
    next hread => exact .ok (hread ▸ hsource).suffix_of_ok
    next hread => exact .ok (hread ▸ hsource).suffix_of_ok

/-- Reading a line without its line break fails only by fault of the input. -/
theorem accounted_nextLine (cursor : Cursor) :
    Accounted id failures cursor.failures cursor.nextLine := by
  have hnext := cursor.accounted_nextRawLine
  rw [nextLine]
  split
  next hread => exact .ok (hread ▸ hnext).suffix_of_ok
  next hread => exact (hread ▸ hnext).pass

/-- Peeking at a byte fails only by fault of the input. -/
theorem accounted_peekByte (cursor : Cursor) :
    Accounted id failures cursor.failures cursor.peekByte := by
  have hsource := cursor.source.accounted_look
  rw [peekByte]
  split
  · exact .ok List.suffix_rfl
  · split
    next hlook => exact accounted_of_source (hlook ▸ hsource) cursor.slot cursor.line
    next hlook => exact .ok (hlook ▸ hsource).suffix_of_ok

/-- What was consumed in vain is put into a slot that is empty. -/
theorem accounted_restoreLine (seen : Bytes) {cursor : Cursor} (h : cursor.slot = .empty) :
    Accounted id failures cursor.failures (cursor.restoreLine seen) := by
  have hsource := cursor.source.accounted_readLine
  rw [restoreLine]
  split
  next hread => exact accounted_of_source (hread ▸ hsource) cursor.slot cursor.line
  next rest source hread =>
    have hslot : { cursor with source, line := cursor.line + 1 }.slot = .empty := h
    exact (accounted_pushBack hslot _).trans (hread ▸ hsource).suffix_of_ok

/-- The search for a mark fails only by fault of the input: with an empty slot, there is room for a
line that turns out to be none. -/
theorem accounted_consumeMark (cursor : Cursor) :
    Accounted id failures cursor.failures cursor.consumeMark := by
  rw [consumeMark]
  split
  next hempty =>
    have hsource := cursor.source.accounted_matchMark 0
    split
    next hmatch => exact accounted_of_source (hmatch ▸ hsource) cursor.slot cursor.line
    next matched source hmatch =>
      have hleft := (hmatch ▸ hsource).suffix_of_ok
      split
      · exact .ok hleft
      · split
        · exact .ok hleft
        · -- The search is made only with an empty slot, which it leaves as it was.
          have hslot : { cursor with source }.slot = .empty := Slot.isEmpty_iff.mp hempty
          have hrestore :=
            (accounted_restoreLine (byteOrderMark.take matched) hslot).trans hleft
          split
          next hok => exact .ok (hok ▸ hrestore).suffix_of_ok
          next herror => exact (herror ▸ hrestore).pass
  · exact .ok List.suffix_rfl

/-- Feeding lines to a scan fails only by fault of the input. -/
theorem accounted_scanLines (scanner : Scanner) (cursor : Cursor) :
    Accounted id failures cursor.failures (cursor.scanLines scanner).2 := by
  -- Every line that is read leaves the last ones of the failures, and the rest of the scan is
  -- accounted for with these.
  fun_induction scanLines scanner cursor with
  | case1 scanner cursor e cursor₁ hread => exact (hread ▸ cursor.accounted_nextRawLine).pass
  | case2 scanner cursor cursor₁ hread =>
    exact .ok (hread ▸ cursor.accounted_nextRawLine).suffix_of_ok
  | case3 scanner cursor raw cursor₁ hread e scanner₁ hfeed =>
    have hleft := (hread ▸ cursor.accounted_nextRawLine).suffix_of_ok
    exact .error (.inl (Scanner.isSome_line?_of_feed hfeed)) hleft
  | case4 scanner cursor raw cursor₁ hread scanner₁ hfeed ih =>
    exact ih.trans (hread ▸ cursor.accounted_nextRawLine).suffix_of_ok
  | case5 scanner cursor raw cursor₁ hread line scanner₁ hfeed =>
    -- The line has come out of the slot, or the slot was empty before.
    exact (accounted_pushBack (slot_of_nextRawLine hread) line).trans
      (hread ▸ cursor.accounted_nextRawLine).suffix_of_ok

/-- Behind the mark, a scan fails only by fault of the input. -/
theorem accounted_scanUnmarked (scanner : Scanner) (cursor : Cursor) :
    Accounted id failures cursor.failures (cursor.scanUnmarked scanner).2 := by
  have hpeek := cursor.accounted_peekByte
  rw [scanUnmarked]
  split
  next herror => exact (herror ▸ hpeek).pass
  next cursor₁ hok =>
    have hleft := (hok ▸ hpeek).suffix_of_ok
    split
    · exact (accounted_scanLines scanner cursor₁).trans hleft
    · exact .ok hleft

/-- A scan of the header fails only by fault of the input. -/
theorem accounted_scanInto (scanner : Scanner) (cursor : Cursor) :
    Accounted id failures cursor.failures (cursor.scanInto scanner).2 := by
  have hmark := cursor.accounted_consumeMark
  rw [scanInto]
  split
  next herror => exact (herror ▸ hmark).pass
  next cursor₁ hok =>
    have hleft := (hok ▸ hmark).suffix_of_ok
    exact (accounted_scanUnmarked scanner cursor₁).trans hleft

/-- Parsing a line that was read fails only by fault of the input, if parsing refuses nothing but
lines. -/
theorem accounted_parseLine {failures' : List Text} {parse : Text → Except LineError Link}
    (hparse : ∀ line e, parse line = .error e → e.line?.isSome) {answer : Answer (Option Text)}
    (h : Accounted id failures failures' answer) :
    Accounted id failures failures' (parseLine parse answer) := by
  rcases answer with ⟨_ | line, cursor⟩ | ⟨e, cursor⟩
  · exact .ok h.suffix_of_ok
  · rw [parseLine]
    split
    · exact .ok h.suffix_of_ok
    next herror => exact .error (.inl (hparse _ _ herror)) h.suffix_of_ok
  · exact h.pass

/-- Completing a record fails only by fault of the input. -/
theorem accounted_absorbLines (record : FixedRecord) (cursor : Cursor) :
    Accounted id failures cursor.failures (cursor.absorbLines record) := by
  fun_induction absorbLines record cursor with
  | case1 record cursor e cursor₁ hread => exact (hread ▸ cursor.accounted_nextRawLine).pass
  | case2 record cursor cursor₁ hread =>
    exact .ok (hread ▸ cursor.accounted_nextRawLine).suffix_of_ok
  | case3 record cursor raw cursor₁ hread record₁ habsorb ih =>
    exact ih.trans (hread ▸ cursor.accounted_nextRawLine).suffix_of_ok
  | case4 record cursor raw cursor₁ hread next record₁ habsorb cursor₂ hpush =>
    have hback := accounted_pushBack (slot_of_nextRawLine hread) next
    rw [hpush] at hback
    exact .ok (hback.suffix_of_ok.trans (hread ▸ cursor.accounted_nextRawLine).suffix_of_ok)
  | case5 record cursor raw cursor₁ hread next record₁ habsorb e cursor₂ hpush =>
    have hback := accounted_pushBack (slot_of_nextRawLine hread) next
    rw [hpush] at hback
    exact (hback.trans (hread ▸ cursor.accounted_nextRawLine).suffix_of_ok).pass

/-- Reading a record of fixed width fails only by fault of the input. -/
theorem accounted_readFixed (width : Nat) (cursor : Cursor) :
    Accounted id failures cursor.failures (cursor.readFixed width) := by
  have hnext := cursor.accounted_nextRawLine
  rw [readFixed]
  split
  next hread => exact (hread ▸ hnext).pass
  next hread => exact .ok (hread ▸ hnext).suffix_of_ok
  next hread =>
    have hleft := (hread ▸ hnext).suffix_of_ok
    split
    next hstart => exact .error (.inl (FixedRecord.isSome_line?_of_start hstart)) hleft
    next record _ =>
      have habsorb := (accounted_absorbLines record _).trans hleft
      split
      next hok => exact .ok (hok ▸ habsorb).suffix_of_ok
      next herror => exact (herror ▸ habsorb).pass

/-- Reading fields between bars fails only by fault of the input. -/
theorem accounted_readBars (cursor : Cursor) :
    Accounted id failures cursor.failures cursor.readBars :=
  accounted_parseLine (fun _ _ => Link.isSome_line?_of_ofBars) cursor.accounted_nextLine

/-- Reading a line up to its first bar fails only by fault of the input. -/
theorem accounted_readFirstBar (cursor : Cursor) :
    Accounted id failures cursor.failures cursor.readFirstBar :=
  accounted_parseLine (fun _ _ => Link.isSome_line?_of_ofFirstBar) cursor.accounted_nextRawLine

/-- In every dialect, reading a link fails only by fault of the input. -/
theorem accounted_readLink (dialect : Dialect) (cursor : Cursor) :
    Accounted id failures cursor.failures (cursor.readLink dialect) := by
  cases dialect with
  | rfc => exact cursor.accounted_readBars
  | variableWidth => exact cursor.accounted_readFirstBar
  | fixedWidth width => exact cursor.accounted_readFixed width

end Cursor

/-! ## Readers -/

namespace Reader

/-- The reasons of the failures that the source is still to give. -/
def failures (reader : Reader) : List Text := reader.cursor.failures

/-- A decoding that is ended by fault of the input is accounted for. -/
theorem accounted_fail {α : Type} {cause : LineError} {reader : Reader} {failures' : List Text}
    (hfault : cause.FaultOf failures') (hleft : reader.failures <:+ failures') :
    Accounted DecodeError.cause failures failures' (reader.fail cause : Answer α) :=
  .error hfault hleft

/-- Reading the fields fails only by fault of the input. -/
theorem accounted_readFields (reader : Reader) :
    Accounted DecodeError.cause failures reader.failures reader.readFields := by
  have hscan : Accounted id Cursor.failures reader.failures reader.cursor.scanHeader.2 :=
    Cursor.accounted_scanInto {} reader.cursor
  rw [readFields]
  split
  · split
    next scanner cursor hok =>
      rw [hok] at hscan
      exact .ok hscan.suffix_of_ok
    next scanner cause cursor herror =>
      rw [herror] at hscan
      cases hscan with
      | error hfault hleft => exact accounted_fail hfault hleft
  · exact .ok List.suffix_rfl

/-- Reading a link with the header in front fails only by fault of the input. -/
theorem accounted_readLink (reader : Reader) :
    Accounted DecodeError.cause failures reader.failures reader.readLink := by
  have hfields := reader.accounted_readFields
  rw [readLink]
  split
  next herror => exact (herror ▸ hfields).pass
  next reader₁ hok =>
    have hleft := (hok ▸ hfields).suffix_of_ok
    split
    · exact .ok hleft
    · have hlink := (reader₁.cursor.accounted_readLink reader₁.dialect).trans hleft
      split
      next hlinkok => exact .ok (hlinkok ▸ hlink).suffix_of_ok
      next hlinkok => exact .ok (hlinkok ▸ hlink).suffix_of_ok
      next hlinkerror =>
        rw [hlinkerror] at hlink
        cases hlink with
        | error hfault hleft => exact accounted_fail hfault hleft

/-- One call: if it fails, the input is at fault. -/
theorem faultOf_of_call (c : Call) (reader : Reader) :
    (∀ e, (reader.call c).1 = .failed e → e.cause.FaultOf reader.failures) ∧
      (reader.call c).2.failures <:+ reader.failures := by
  have hlink : (∀ e, (reader.call .link).1 = .failed e → e.cause.FaultOf reader.failures) ∧
      (reader.call .link).2.failures <:+ reader.failures := by
    have hread := reader.accounted_readLink
    rw [call]
    generalize reader.readLink = answer at hread
    cases hread with
    | @ok value reader₁ hleft => cases value with
      | none => exact ⟨fun _ heq => Reply.noConfusion heq, hleft⟩
      | some link => exact ⟨fun _ heq => Reply.noConfusion heq, hleft⟩
    | error hfault hleft => exact ⟨fun _ heq => Reply.failed.inj heq ▸ hfault, hleft⟩
  cases c with
  | fields =>
    have hread := reader.accounted_readFields
    rw [call]
    generalize reader.readFields = answer at hread
    cases hread with
    | ok hleft => exact ⟨fun _ heq => Reply.noConfusion heq, hleft⟩
    | error hfault hleft => exact ⟨fun _ heq => Reply.failed.inj heq ▸ hfault, hleft⟩
  | link => exact hlink
  | item =>
    rw [call_item]
    exact hlink

/-- Any number of calls. -/
theorem faultOf_of_mem_transcript {reader : Reader} {calls : List Call} {entry : Entry}
    {e : DecodeError} (hmem : entry ∈ (reader.transcript calls).1) (he : entry.reply = .failed e) :
    e.cause.FaultOf reader.failures := by
  induction calls generalizing reader with
  | nil => cases hmem
  | cons c calls ih =>
    obtain ⟨hcall, hleft⟩ := faultOf_of_call c reader
    rw [transcript, transcript_cons, List.mem_cons] at hmem
    rcases hmem with rfl | hmem
    · exact hcall e he
    · exact (ih hmem).mono hleft.subset

/-- Reading to the end. -/
theorem faultOf_of_readLinks {reader reader' : Reader} {links : List Link} {e : DecodeError}
    (h : reader.readLinks = (links, some e, reader')) : e.cause.FaultOf reader.failures := by
  fun_induction readLinks reader generalizing links with
  | case1 => cases h
  | case2 reader e' reader₁ hread =>
    cases h
    have hlink := hread ▸ reader.accounted_readLink
    cases hlink with
    | error hfault hleft => exact hfault
  | case3 reader link reader₁ hread links₁ failure₁ reader₂ hrest ih =>
    cases h
    exact (ih hrest).mono (hread ▸ reader.accounted_readLink).suffix_of_ok.subset

end Reader

/-- A dump fails to decode only by its own fault. -/
theorem faultOf_of_decode {dialect : Dialect} {source : Source} {e : DecodeError}
    (h : (decode dialect source).failure = some e) : e.cause.FaultOf source.failures := by
  rcases hlinks : (Reader.ofSource dialect source).readLinks with ⟨links, failure, reader⟩
  simp only [decode, Reader.finish, hlinks] at h
  subst h
  exact Reader.faultOf_of_readLinks hlinks

end LinkDump
