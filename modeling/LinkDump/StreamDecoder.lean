import LinkDump.Decoded
import LinkDump.Header
import LinkDump.Record.Bars
import LinkDump.Record.FixedWidth
import LinkDump.Dialect

/-! # Stream decoders
A stream decoder decodes a dump in turns. In each turn it asks its source for one look or one line,
or takes the line that waits in its slot, and then either suspends at a point that says all it needs
to go on, or has the answer of the call. Between two turns it can be put aside for as long as the
source needs to deliver. `HeaderPoint` and `LinkPoint` are the points of suspension of the two
calls; a call runs from its first point until it has an answer. -/

namespace LinkDump

/-- A dump that is being decoded in turns. -/
structure StreamDecoder where
  source : Source
  dialect : Dialect
  slot : Slot := .empty
  line : Nat := 0
  fields : List MetaField := []
  phase : Phase := .header
  deriving Repr, DecidableEq

/-- Where a scan of the header is suspended. -/
inductive HeaderPoint
  /-- To look for the rest of a byte order mark, of which `matched` bytes have been consumed. -/
  | mark (matched : Nat)
  /-- To read the rest of a line that began with `matched` bytes of a mark and is none. -/
  | brokenMark (matched : Nat)
  /-- To look at the byte that the first line starts with. -/
  | firstByte
  /-- To read the next line, at this part of the header. -/
  | nextLine (part : HeaderPart)
  deriving Repr, DecidableEq

/-- Where the reading of a link is suspended. -/
inductive LinkPoint
  /-- To read the line that the link starts with. -/
  | firstLine
  /-- To read a line that may continue the record. -/
  | nextLine (record : FixedRecord)
  deriving Repr, DecidableEq

namespace StreamDecoder

/-- What a turn ends with: a point to go on from, or the answer of the call. -/
inductive Turn (point α : Type)
  | suspended (next : point) (decoder : StreamDecoder)
  | answered (answer : EStateM.Result LineError StreamDecoder α)

/-- A decoder of a source that nothing has been read from. -/
def ofSource (dialect : Dialect) (source : Source) : StreamDecoder := { source, dialect }

/-- The work that is left: two for each unread byte, and one for a line that waits in the slot. -/
def pending (decoder : StreamDecoder) : Nat :=
  2 * decoder.source.bytes.length + decoder.slot.count

/-- Receive the next line, with its line break: the one that waits, or else one from the source. -/
def receiveLine (decoder : StreamDecoder) : EStateM.Result LineError StreamDecoder (Option Text) :=
  match decoder.slot.held with
  | some line => .ok (some line) { decoder with slot := .empty }
  | none =>
    match decoder.source.readLine with
    | .error reason source => .error (.input reason) { decoder with source }
    | .ok bytes source =>
      if bytes.isEmpty then .ok none { decoder with source }
      else .ok (some (Utf8.decode bytes)) { decoder with source, line := decoder.line + 1 }

/-- Keep a line that was read too early. -/
def keepLine (line : Text) (decoder : StreamDecoder) :
    EStateM.Result LineError StreamDecoder Unit :=
  match decoder.slot.put line with
  | some slot => .ok () { decoder with slot }
  | none => .error .slotOccupied decoder

/-- A look leaves as much to do. -/
theorem pending_of_look {decoder : StreamDecoder} {bytes : Bytes} {source : Source}
    (h : decoder.source.look = .ok bytes source) :
    pending { decoder with source } = decoder.pending := by
  rw [pending, pending, Source.bytes_of_look_eq_ok h]

/-- Each byte that is consumed leaves less to do. -/
theorem pending_consume_of_look {decoder : StreamDecoder} {bytes : Bytes} {source : Source}
    {count : Nat} (h : decoder.source.look = .ok bytes source) (hcount : count ≤ bytes.length) :
    pending { decoder with source := source.consume count } + 2 * count = decoder.pending := by
  have hlen := congrArg List.length (Source.bytes_consume_of_look h hcount)
  rw [List.length_append, List.length_take_of_le hcount] at hlen
  simp only [pending]
  omega

/-- What is kept is one more thing to do. -/
theorem pending_of_keepLine {decoder decoder' : StreamDecoder} {line : Text}
    (h : decoder.keepLine line = .ok () decoder') : decoder'.pending = decoder.pending + 1 := by
  obtain ⟨source, dialect, ⟨held⟩, n, fields, phase⟩ := decoder
  cases held with
  | some text => cases h
  | none => cases h; simp [pending, Slot.count, Slot.isEmpty]

/-- Each line received leaves less to do. -/
theorem pending_lt_of_receiveLine {decoder decoder' : StreamDecoder} {line : Text}
    (h : decoder.receiveLine = .ok (some line) decoder') : decoder'.pending < decoder.pending := by
  obtain ⟨source, dialect, ⟨held⟩, n, fields, phase⟩ := decoder
  cases held with
  | some text =>
    simp only [receiveLine, EStateM.Result.ok.injEq] at h
    obtain ⟨-, rfl⟩ := h
    simp [pending]
  | none =>
    simp only [receiveLine] at h
    split at h
    · cases h
    next bytes source' hread =>
      split at h
      · cases h
      next hne =>
        cases h
        have hlen := congrArg List.length (Source.bytes_of_readLine_eq_ok hread)
        have hpos := List.length_pos_iff.mpr (mt List.isEmpty_iff.mpr hne)
        simp only [List.length_append] at hlen
        simp only [pending, Slot.count, Slot.isEmpty, Option.isNone_none, if_true]
        omega

/-! ## The header -/

/-- One turn of a scan of the header. The fields are kept as they come. -/
def headerTurn (decoder : StreamDecoder) : HeaderPoint → Turn HeaderPoint Unit
  | .mark matched =>
    match decoder.source.look with
    | .error reason source => .answered (.error (.input reason) { decoder with source })
    | .ok bytes source =>
      match if bytes.isEmpty then none else continueMark matched bytes with
      | some count =>
        if matched + count = byteOrderMark.length then
          .suspended .firstByte { decoder with source := source.consume count }
        else .suspended (.mark (matched + count)) { decoder with source := source.consume count }
      | none =>
        if matched = 0 then .suspended .firstByte { decoder with source }
        else .suspended (.brokenMark matched) { decoder with source }
  | .brokenMark matched =>
    match decoder.source.readLine with
    | .error reason source => .answered (.error (.input reason) { decoder with source })
    | .ok rest source =>
      match { decoder with source, line := decoder.line + 1 }.keepLine
          (Utf8.decode (byteOrderMark.take matched ++ rest)) with
      | .ok () decoder => .suspended .firstByte decoder
      | .error e decoder => .answered (.error e decoder)
  | .firstByte =>
    match decoder.slot.held with
    | some line =>
      if (Utf8.encode line).head? = some 0x23 then .suspended (.nextLine .fields) decoder
      else .answered (.ok () decoder)
    | none =>
      match decoder.source.look with
      | .error reason source => .answered (.error (.input reason) { decoder with source })
      | .ok bytes source =>
        if bytes.head? = some 0x23 then .suspended (.nextLine .fields) { decoder with source }
        else .answered (.ok () { decoder with source })
  | .nextLine part =>
    match decoder.receiveLine with
    | .error e decoder => .answered (.error e decoder)
    | .ok none decoder => .answered (.ok () decoder)
    | .ok (some raw) decoder =>
      match Scanner.feed ⟨decoder.fields, part⟩ raw with
      | (.error e, _) => .answered (.error e decoder)
      | (.ok .more, scanner) =>
        .suspended (.nextLine scanner.part) { decoder with fields := scanner.fields }
      | (.ok (.done line), _) => .answered (decoder.keepLine line)

/-- A bound for the turns that a scan of the header still takes. -/
def headerTurns (decoder : StreamDecoder) : HeaderPoint → Nat
  | .mark 0 => 4 * decoder.pending + 3
  | .mark (_ + 1) => 4 * (decoder.pending + 1) + 3
  | .brokenMark _ => 4 * (decoder.pending + 1) + 2
  | .firstByte => 4 * decoder.pending + 1
  | .nextLine _ => 4 * decoder.pending

/-- A mark of which bytes have been consumed may turn out to be the start of a line. -/
theorem headerTurns_mark_bounds (decoder : StreamDecoder) (matched : Nat) :
    4 * decoder.pending + 3 ≤ decoder.headerTurns (.mark matched) ∧
      decoder.headerTurns (.mark matched) ≤ 4 * (decoder.pending + 1) + 3 := by
  cases matched with
  | zero => simp only [headerTurns]; omega
  | succ matched => simp only [headerTurns]; omega

/-- A turn at the mark brings the answer nearer, whether it takes bytes of the mark, or ends it, or
finds it broken. -/
theorem headerTurns_lt_of_headerTurn_mark {decoder decoder' : StreamDecoder} {matched : Nat}
    {point' : HeaderPoint} (h : decoder.headerTurn (.mark matched) = .suspended point' decoder') :
    decoder'.headerTurns point' < decoder.headerTurns (.mark matched) := by
  have hbound := (decoder.headerTurns_mark_bounds matched).1
  rw [headerTurn] at h
  split at h
  · cases h
  next bytes source hlook =>
    have hpending := pending_of_look hlook
    split at h
    next count hcont =>
      split at hcont
      · cases hcont
      next hne =>
        obtain ⟨hm, hmin, -⟩ := continueMark_eq_some_iff.mp hcont
        have hpos := List.length_pos_iff.mpr (mt List.isEmpty_iff.mpr hne)
        have hconsumed := pending_consume_of_look hlook (by omega : count ≤ bytes.length)
        apply Nat.lt_of_lt_of_le _ hbound
        split at h
        · cases h
          simp only [headerTurns]
          omega
        next hmark =>
          -- A byte of the mark was consumed, which weighs more than that the mark may break.
          cases h
          have hbound' := (headerTurns_mark_bounds
            { decoder with source := source.consume count } (matched + count)).2
          omega
    · split at h
      · cases h
        apply Nat.lt_of_lt_of_le _ hbound
        simp only [headerTurns]
        omega
      next hpos =>
        cases h
        obtain ⟨n, rfl⟩ := Nat.exists_eq_succ_of_ne_zero hpos
        simp only [headerTurns]
        omega

/-- Each turn brings the answer nearer. -/
theorem headerTurns_lt_of_headerTurn {decoder decoder' : StreamDecoder} {point point' : HeaderPoint}
    (h : decoder.headerTurn point = .suspended point' decoder') :
    decoder'.headerTurns point' < decoder.headerTurns point := by
  cases point with
  | mark matched => exact headerTurns_lt_of_headerTurn_mark h
  | brokenMark matched =>
    rw [headerTurn] at h
    split at h
    · cases h
    next rest source hread =>
      split at h
      next hkeep =>
        cases h
        have hone := pending_of_keepLine hkeep
        have hlen := congrArg List.length (Source.bytes_of_readLine_eq_ok hread)
        simp only [List.length_append] at hlen
        simp only [headerTurns, pending] at *
        omega
      · cases h
  | firstByte =>
    rw [headerTurn] at h
    split at h
    · split at h
      · cases h
        simp only [headerTurns]
        omega
      · cases h
    · split at h
      · cases h
      next hlook =>
        have hpending := pending_of_look hlook
        split at h
        · cases h
          simp only [headerTurns]
          omega
        · cases h
  | nextLine part =>
    rw [headerTurn] at h
    split at h
    · cases h
    · cases h
    next hreceive =>
      have hlt := pending_lt_of_receiveLine hreceive
      split at h
      · cases h
      · cases h
        simp only [headerTurns, pending] at *
        omega
      · cases h

/-- Take turns at the header until there is an answer. -/
def runHeader (decoder : StreamDecoder) (point : HeaderPoint) :
    EStateM.Result LineError StreamDecoder Unit :=
  match _h : decoder.headerTurn point with
  | .answered answer => answer
  | .suspended point decoder => runHeader decoder point
termination_by decoder.headerTurns point
decreasing_by exact headerTurns_lt_of_headerTurn _h

/-! ## Links -/

/-- One turn of the reading of a link. -/
def linkTurn (decoder : StreamDecoder) : LinkPoint → Turn LinkPoint (Option Link)
  | .firstLine =>
    match decoder.receiveLine with
    | .error e decoder => .answered (.error e decoder)
    | .ok none decoder => .answered (.ok none decoder)
    | .ok (some raw) decoder =>
      match decoder.dialect with
      | .rfc =>
        match Link.ofBars (dropLineBreak raw) with
        | .ok link => .answered (.ok (some link) decoder)
        | .error e => .answered (.error e decoder)
      | .variableWidth =>
        match Link.ofFirstBar raw with
        | .ok link => .answered (.ok (some link) decoder)
        | .error e => .answered (.error e decoder)
      | .fixedWidth width =>
        match FixedRecord.start width raw with
        | .ok record => .suspended (.nextLine record) decoder
        | .error e => .answered (.error e decoder)
  | .nextLine record =>
    match decoder.receiveLine with
    | .error e decoder => .answered (.error e decoder)
    | .ok none decoder => .answered (.ok (some record.finish) decoder)
    | .ok (some raw) decoder =>
      match record.absorb raw with
      | (none, record) => .suspended (.nextLine record) decoder
      | (some next, record) =>
        match decoder.keepLine next with
        | .ok () decoder => .answered (.ok (some record.finish) decoder)
        | .error e decoder => .answered (.error e decoder)

/-- A suspended reading of a link has received a line. -/
theorem pending_lt_of_linkTurn {decoder decoder' : StreamDecoder} {point point' : LinkPoint}
    (h : decoder.linkTurn point = .suspended point' decoder') :
    decoder'.pending < decoder.pending := by
  cases point with
  | firstLine =>
    rw [linkTurn] at h
    split at h
    · cases h
    · cases h
    next hreceive =>
      split at h
      · split at h <;> cases h
      · split at h <;> cases h
      · split at h
        · cases h
          exact pending_lt_of_receiveLine hreceive
        · cases h
  | nextLine record =>
    rw [linkTurn] at h
    split at h
    · cases h
    · cases h
    next hreceive =>
      split at h
      · cases h
        exact pending_lt_of_receiveLine hreceive
      · split at h <;> cases h

/-- Take turns at a link until there is an answer. -/
def runLink (decoder : StreamDecoder) (point : LinkPoint) :
    EStateM.Result LineError StreamDecoder (Option Link) :=
  match _h : decoder.linkTurn point with
  | .answered answer => answer
  | .suspended point decoder => runLink decoder point
termination_by decoder.pending
decreasing_by exact pending_lt_of_linkTurn _h

/-! ## Calls -/

/-- What a call gives: a value or an error, and the decoder after it. -/
abbrev Answer (α : Type) := EStateM.Result DecodeError StreamDecoder α

/-- End the decoding with an error at the current line. -/
def fail {α : Type} (cause : LineError) (decoder : StreamDecoder) : Answer α :=
  .error ⟨decoder.line, cause⟩ { decoder with phase := .done }

/-- The meta fields, in file order. The first call scans the header; later calls give the same
fields again. -/
def readFields (decoder : StreamDecoder) : Answer (List MetaField) :=
  match decoder.phase with
  | .header =>
    match decoder.runHeader (if decoder.slot.isEmpty then .mark 0 else .firstByte) with
    | .ok () decoder => .ok decoder.fields { decoder with phase := .links }
    | .error cause decoder => decoder.fail cause
  | _ => .ok decoder.fields decoder

/-- The next link, or nothing at the end and after an error. -/
def readLink (decoder : StreamDecoder) : Answer (Option Link) :=
  match decoder.readFields with
  | .error e decoder => .error e decoder
  | .ok _ decoder =>
    match decoder.phase with
    | .done => .ok none decoder
    | _ =>
      match decoder.runLink .firstLine with
      | .ok (some link) decoder => .ok (some link) decoder
      | .ok none decoder => .ok none { decoder with phase := .done }
      | .error cause decoder => decoder.fail cause

/-- The next item of the sequence of links, in which an error is the last item. -/
def next (decoder : StreamDecoder) : Option (Except DecodeError Link) × StreamDecoder :=
  match decoder.readLink with
  | .ok none decoder => (none, decoder)
  | .ok (some link) decoder => (some (.ok link), decoder)
  | .error e decoder => (some (.error e), decoder)

/-! ## Decoding to the end -/

/-- With no line left, asking for one leaves as much to do. -/
theorem pending_of_receiveLine_none {decoder decoder' : StreamDecoder}
    (h : decoder.receiveLine = .ok none decoder') : decoder'.pending = decoder.pending := by
  rw [receiveLine] at h
  split at h
  · cases h
  · split at h
    · cases h
    next hread =>
      split at h
      next hempty =>
        cases h
        have hlen := congrArg List.length (Source.bytes_of_readLine_eq_ok hread)
        rw [List.isEmpty_iff.mp hempty, List.nil_append] at hlen
        simp only [pending]
        omega
      · cases h

/-- The turn that ends a scan of the header leaves no more to do than the bound of its turns allows.
-/
theorem pending_le_of_headerTurn {decoder decoder' : StreamDecoder} {point : HeaderPoint}
    (h : decoder.headerTurn point = .answered (.ok () decoder')) :
    4 * decoder'.pending ≤ decoder.headerTurns point := by
  cases point with
  -- Neither a mark nor a broken one ends the scan: the byte behind it is looked at first.
  | mark matched =>
    rw [headerTurn] at h
    split at h
    · cases h
    · split at h <;> split at h <;> cases h
  | brokenMark matched =>
    rw [headerTurn] at h
    split at h
    · cases h
    · split at h <;> cases h
  | firstByte =>
    rw [headerTurn] at h
    split at h
    · split at h
      · cases h
      · cases h
        simp only [headerTurns]
        omega
    · split at h
      · cases h
      next hlook =>
        have hpending := pending_of_look hlook
        split at h
        · cases h
        · cases h
          simp only [headerTurns]
          omega
  | nextLine part =>
    rw [headerTurn] at h
    split at h
    · cases h
    next hreceive =>
      cases h
      simp only [headerTurns]
      have := pending_of_receiveLine_none hreceive
      omega
    next hreceive =>
      have hlt := pending_lt_of_receiveLine hreceive
      split at h
      · cases h
      · cases h
      next line _ _ =>
        simp only [Turn.answered.injEq] at h
        have hone := pending_of_keepLine h
        simp only [headerTurns]
        omega

/-- A scan of the header that succeeds leaves no more to do than the bound of its turns allows. -/
theorem pending_le_of_runHeader {decoder decoder' : StreamDecoder} {point : HeaderPoint}
    (h : decoder.runHeader point = .ok () decoder') :
    4 * decoder'.pending ≤ decoder.headerTurns point := by
  fun_induction runHeader decoder point with
  | case1 decoder point answer hturn =>
    subst h
    exact pending_le_of_headerTurn hturn
  | case2 decoder point point₁ decoder₁ hturn ih =>
    exact Nat.le_trans (ih h) (Nat.le_of_lt (headerTurns_lt_of_headerTurn hturn))

/-- Reading the fields never leaves more to do. -/
theorem pending_le_of_readFields {decoder decoder' : StreamDecoder} {fields : List MetaField}
    (h : decoder.readFields = .ok fields decoder') : decoder'.pending ≤ decoder.pending := by
  rw [readFields] at h
  split at h
  · split at h
    next decoder₁ hrun =>
      cases h
      have hle := pending_le_of_runHeader hrun
      have hbound : decoder.headerTurns (if decoder.slot.isEmpty then .mark 0 else .firstByte) ≤
          4 * decoder.pending + 3 := by
        split <;> simp only [headerTurns] <;> omega
      change decoder₁.pending ≤ decoder.pending
      omega
    · cases h
  · cases h
    exact Nat.le_refl _

/-- The turn that gives a link never leaves more to do, and it leaves less if it is the first one of
the call. -/
theorem pending_le_of_linkTurn {decoder decoder' : StreamDecoder} {point : LinkPoint} {link : Link}
    (h : decoder.linkTurn point = .answered (.ok (some link) decoder')) :
    decoder'.pending ≤ decoder.pending ∧
      (point = .firstLine → decoder'.pending < decoder.pending) := by
  cases point with
  | firstLine =>
    suffices hlt : decoder'.pending < decoder.pending from ⟨Nat.le_of_lt hlt, fun _ => hlt⟩
    rw [linkTurn] at h
    split at h
    · cases h
    · cases h
    next hreceive =>
      have hlt := pending_lt_of_receiveLine hreceive
      split at h
      · split at h <;> cases h
        exact hlt
      · split at h <;> cases h
        exact hlt
      · split at h <;> cases h
  | nextLine record =>
    refine ⟨?_, nofun⟩
    rw [linkTurn] at h
    split at h
    · cases h
    next hreceive =>
      cases h
      exact Nat.le_of_eq (pending_of_receiveLine_none hreceive)
    next hreceive =>
      have hlt := pending_lt_of_receiveLine hreceive
      split at h
      · cases h
      · split at h
        next hkeep =>
          cases h
          have := pending_of_keepLine hkeep
          omega
        · cases h

/-- A call that gives a link never leaves more to do, and it leaves less if it has started with the
first line. -/
theorem pending_le_of_runLink {decoder decoder' : StreamDecoder} {point : LinkPoint} {link : Link}
    (h : decoder.runLink point = .ok (some link) decoder') :
    decoder'.pending ≤ decoder.pending ∧
      (point = .firstLine → decoder'.pending < decoder.pending) := by
  fun_induction runLink decoder point with
  | case1 decoder point answer hturn =>
    subst h
    exact pending_le_of_linkTurn hturn
  | case2 decoder point point₁ decoder₁ hturn ih =>
    have hlt := Nat.lt_of_le_of_lt (ih h).1 (pending_lt_of_linkTurn hturn)
    exact ⟨Nat.le_of_lt hlt, fun _ => hlt⟩

/-- Each link read leaves less to do. -/
theorem pending_lt_of_readLink {decoder decoder' : StreamDecoder} {link : Link}
    (h : decoder.readLink = .ok (some link) decoder') : decoder'.pending < decoder.pending := by
  rw [readLink] at h
  split at h
  · cases h
  next hfields =>
    have hle := pending_le_of_readFields hfields
    split at h
    · cases h
    · split at h
      next hrun =>
        cases h
        exact Nat.lt_of_lt_of_le ((pending_le_of_runLink hrun).2 rfl) hle
      · cases h
      · cases h

/-- All further links, the error that ended them if there was one, and the decoder after that. -/
def readLinks (decoder : StreamDecoder) : List Link × Option DecodeError × StreamDecoder :=
  match _h : decoder.readLink with
  | .ok none decoder => ([], none, decoder)
  | .error e decoder => ([], some e, decoder)
  | .ok (some link) decoder =>
    let (links, failure, decoder) := readLinks decoder
    (link :: links, failure, decoder)
termination_by decoder.pending
decreasing_by exact pending_lt_of_readLink _h

/-- Decode to the end, and say all that was found. -/
def finish (decoder : StreamDecoder) : Decoded :=
  let (links, failure, decoder) := decoder.readLinks
  { fields := decoder.fields, links, failure, line := decoder.line }

end StreamDecoder

end LinkDump
