import LinkDump.Proofs.AlikeDecoding
import LinkDump.Proofs.Finished

/-! # Short reads
Nothing that a dump decodes to depends on how its bytes are cut into chunks. Two sources with the
same pieces, once chunks next to each other are joined, decode to the same. Where there are nothing
but chunks this holds call by call, in every session. Only one thing shows: a mark that breaks off
at the end of a chunk has its line read, and counted, by the scan of the header, while the same
bytes in one chunk are left to the first read. After that read nothing tells the two apart. -/

namespace LinkDump

/-! ## Joining chunks -/

namespace Source

/-- A source with chunks that follow each other joined. -/
def join : Source → Source
  | [] => []
  | .failure reason :: source => .failure reason :: join source
  | .lull :: source => .lull :: join source
  | .chunk b rest :: source =>
    match join source with
    | .chunk d more :: joined => .chunk b (rest ++ d :: more) :: joined
    | joined => .chunk b rest :: joined

/-- A source that does not start with a chunk. -/
def Chunkless (source : Source) : Prop := ∀ b rest back, source ≠ .chunk b rest :: back

/-- What does not start with a chunk does not start with one when its chunks are joined. -/
theorem Chunkless.join {source : Source} (h : source.Chunkless) : source.join.Chunkless := by
  rcases source with _ | ⟨⟨b, rest⟩ | reason | _, source⟩
  · exact nofun
  · exact absurd rfl (h b rest source)
  · exact nofun
  · exact nofun

/-- Joining a chunk to what follows puts its bytes in front. -/
theorem join_chunk {source back : Source} {bs : Bytes} (h : join source = push bs back)
    (hback : back.Chunkless) (b : UInt8) (rest : Bytes) :
    join (.chunk b rest :: source) = push (b :: rest ++ bs) back := by
  rw [join, h]
  cases bs with
  | cons d more => rfl
  | nil =>
    rcases back with _ | ⟨⟨d, more⟩ | reason | _, back⟩
    · simp [push]
    · exact absurd rfl (hback d more back)
    · simp [push]
    · simp [push]

/-- Every source is some chunks and then something else, and the chunks are joined into one. -/
theorem exists_join_eq_push (source : Source) :
    ∃ chunks back : Source, source = chunks ++ back ∧ chunks.AllChunks ∧ back.Chunkless ∧
      source.join = push chunks.bytes back.join := by
  induction source with
  | nil => exact ⟨[], [], rfl, allChunks_nil, nofun, rfl⟩
  | cons piece source ih =>
    cases piece with
    | failure reason => exact ⟨[], _, rfl, allChunks_nil, nofun, rfl⟩
    | lull => exact ⟨[], _, rfl, allChunks_nil, nofun, rfl⟩
    | chunk b rest =>
      -- One more chunk in front, whose bytes join those of the others.
      obtain ⟨chunks, back, rfl, hchunks, hback, hjoin⟩ := ih
      refine ⟨.chunk b rest :: chunks, back, rfl, allChunks_chunk.mpr hchunks, hback, ?_⟩
      rw [join_chunk hjoin hback.join, bytes_chunk]

/-- Bytes in front of something else than a chunk can be told from it. -/
theorem push_inj {bs bs' : Bytes} {back back' : Source} (hback : back.Chunkless)
    (hback' : back'.Chunkless) (h : push bs back = push bs' back') : bs = bs' ∧ back = back' := by
  rcases bs with _ | ⟨b, rest⟩
  · rcases bs' with _ | ⟨b', rest'⟩
    · exact ⟨rfl, h⟩
    · exact absurd h (hback b' rest' back')
  · rcases bs' with _ | ⟨b', rest'⟩
    · exact absurd h.symm (hback' b rest back)
    · cases h
      exact ⟨rfl, rfl⟩

/-- Reading lines gives the same from a source and from its chunks joined. -/
theorem readings_join (source : Source) : source.join.readings = source.readings := by
  induction source with
  | nil => rfl
  | cons piece source ih =>
    cases piece with
    | failure reason => rw [join, readings_failure, readings_failure, ih]
    | lull => rw [join, readings_lull, readings_lull, ih]
    | chunk b rest =>
      obtain ⟨chunks, back, -, -, hback, hjoin⟩ := exists_join_eq_push source
      rw [join_chunk hjoin hback.join, readings_push, prepend_append, readings_chunk, ← ih, hjoin,
        readings_push]

end Source

/-- What is still to come behind a mark, if these bytes come in chunks and something else than a
chunk follows them. -/
def readingsBehindMark (bytes : Bytes) : Source → List Reading
  | [] => (dumpLines bytes).map .ok
  | .chunk _ _ :: _ => []
  | .failure reason :: source => prepend (dropMark bytes) (.error reason :: Source.readings source)
  | .lull :: source =>
    if bytes <+: byteOrderMark ∧ bytes ≠ byteOrderMark then prepend bytes (Source.readings source)
    else prepend (dropMark bytes) (.ok [] :: Source.readings source)

/-- What is still to come behind a mark does not depend on how the chunks further on are cut. -/
theorem readingsBehindMark_join (bytes : Bytes) {source : Source} (h : source.Chunkless) :
    readingsBehindMark bytes source.join = readingsBehindMark bytes source := by
  rcases source with _ | ⟨⟨b, rest⟩ | reason | _, source⟩
  · rfl
  · exact absurd rfl (h b rest source)
  · simp only [Source.join, readingsBehindMark, Source.readings_join]
  · simp only [Source.join, readingsBehindMark, Source.readings_join]

namespace Cursor

/-- Chunks that something else follows leave to be read what comes behind their mark. -/
theorem marked_of_chunkless {chunks back : Source} (hchunks : chunks.AllChunks)
    (hback : back.Chunkless) :
    Marked (readingsBehindMark chunks.bytes back) (consumeMark { source := chunks ++ back }) := by
  rcases back with _ | ⟨⟨b, rest⟩ | reason | _, back⟩
  · rw [List.append_nil]
    exact marked_chunks hchunks
  · exact absurd rfl (hback b rest back)
  · exact marked_chunks_failure hchunks reason back
  · exact marked_chunks_lull hchunks back

/-- Behind the mark, joined chunks leave the same to read. -/
theorem marked_of_join_eq {source source' : Source} (h : source.join = source'.join) :
    ∃ readings, Marked readings (consumeMark { source }) ∧
      Marked readings (consumeMark { source := source' }) := by
  obtain ⟨chunks, back, rfl, hchunks, hback, hjoin⟩ := source.exists_join_eq_push
  obtain ⟨chunks', back', rfl, hchunks', hback', hjoin'⟩ := source'.exists_join_eq_push
  rw [hjoin, hjoin'] at h
  -- The same bytes come first in both, and what follows them is the same once it is joined.
  obtain ⟨hbytes, hbacks⟩ := Source.push_inj hback.join hback'.join h
  have hreadings : readingsBehindMark chunks'.bytes back' =
      readingsBehindMark chunks.bytes back := by
    rw [← readingsBehindMark_join _ hback, ← readingsBehindMark_join _ hback', hbytes, hbacks]
  exact ⟨_, marked_of_chunkless hchunks hback, hreadings ▸ marked_of_chunkless hchunks' hback'⟩

end Cursor

/-! ## Sessions -/

/-- What of an entry cannot depend on how the bytes arrive: the reply, and the number of lines read
unless the call was for the fields. -/
def Entry.settled (c : Call) (entry : Entry) : Reply × Option Nat :=
  (entry.reply, if c = .fields then none else some entry.line)

/-- Where a broken mark is cut by a chunk's end, the call for the fields has read its line. -/
example : ((Reader.ofSource .rfc [.chunk 0xEF [], .chunk 0xBB [0x41]]).transcript [.fields]).1 =
      [⟨.fields [], 1⟩] ∧
    ((Reader.ofSource .rfc [.chunk 0xEF [0xBB, 0x41]]).transcript [.fields]).1 =
      [⟨.fields [], 0⟩] := ⟨rfl, rfl⟩

namespace Reader

/-- Two readers that will give the same replies from now on. -/
inductive Alike : Reader → Reader → Prop
  | header {cursor cursor' : Cursor} {dialect : Dialect} {fields : List MetaField}
      (h : Cursor.HeaderAlike none cursor.scanHeader cursor'.scanHeader) :
      Alike ⟨cursor, dialect, fields, .header⟩ ⟨cursor', dialect, fields, .header⟩
  | links {cursor cursor' : Cursor} {dialect : Dialect} {fields : List MetaField}
      (h : cursor.Alike none cursor') :
      Alike ⟨cursor, dialect, fields, .links⟩ ⟨cursor', dialect, fields, .links⟩
  | done {cursor cursor' : Cursor} {dialect : Dialect} {fields : List MetaField}
      (hline : cursor'.line = cursor.line) :
      Alike ⟨cursor, dialect, fields, .done⟩ ⟨cursor', dialect, fields, .done⟩

variable {reader reader' : Reader} {cursor cursor' : Cursor} {dialect : Dialect}
  {fields : List MetaField}

/-- Whatever the header is, two readers that are alike find the same. -/
theorem Alike.readFields (h : Alike reader reader') :
    (∃ fields reader₁ reader₁', reader.readFields = .ok fields reader₁ ∧
      reader'.readFields = .ok fields reader₁' ∧ Alike reader₁ reader₁' ∧
      reader₁.phase ≠ .header) ∨
    ∃ e reader₁ reader₁', reader.readFields = .error e reader₁ ∧
      reader'.readFields = .error e reader₁' ∧ Alike reader₁ reader₁' ∧
      reader₁'.line = reader₁.line := by
  cases h with
  | @header cursor cursor' dialect fields h =>
    generalize hscan : cursor.scanHeader = outcome at h
    generalize hscan' : cursor'.scanHeader = outcome' at h
    cases h with
    | @scanned scanner cursor₁ cursor₁' h =>
      refine .inl ⟨scanner.fields, ⟨cursor₁, dialect, scanner.fields, .links⟩,
        ⟨cursor₁', dialect, scanner.fields, .links⟩, ?_, ?_, .links h, Phase.noConfusion⟩
      · simp only [Reader.readFields, hscan]
      · simp only [Reader.readFields, hscan']
    | @failed scanner e cursor₁ cursor₁' hline =>
      refine .inr ⟨⟨cursor₁.line, e⟩, ⟨cursor₁, dialect, scanner.fields, .done⟩,
        ⟨cursor₁', dialect, scanner.fields, .done⟩, ?_, ?_, .done hline, hline⟩
      · simp only [Reader.readFields, hscan, fail, line]
      · simp only [Reader.readFields, hscan', fail, line, hline]
    | stopped hstop => cases hstop
  | links h => exact .inl ⟨_, _, _, rfl, rfl, .links h, Phase.noConfusion⟩
  | done hline => exact .inl ⟨_, _, _, rfl, rfl, .done hline, Phase.noConfusion⟩

/-- From cursors that read alike, calls for a link are answered alike, at the same line. -/
theorem call_link_of_alike (h : cursor.Alike none cursor') :
    (call .link ⟨cursor', dialect, fields, .links⟩).1 =
        (call .link ⟨cursor, dialect, fields, .links⟩).1 ∧
      Alike (call .link ⟨cursor, dialect, fields, .links⟩).2
        (call .link ⟨cursor', dialect, fields, .links⟩).2 ∧
      (call .link ⟨cursor', dialect, fields, .links⟩).2.line =
        (call .link ⟨cursor, dialect, fields, .links⟩).2.line := by
  have hlink := h.readLink dialect
  simp only [call, readLink_eq]
  generalize cursor.readLink dialect = answer at hlink
  generalize cursor'.readLink dialect = answer' at hlink
  cases hlink with
  | link h hline hheld => exact ⟨rfl, .links h, hline⟩
  | nothing hstop hline => exact ⟨rfl, .done hline, hline⟩
  | failed hline =>
    simp only [Reply.ofLink, hline, true_and]
    exact ⟨.done hline, hline⟩
  | stopped hstop => cases hstop
  | stoppedWithin hstop => cases hstop

/-- The step of a session: readers that are alike give the same reply and are alike after it. Once a
link has been asked for, they are at the same line. -/
theorem Alike.call (h : Alike reader reader') (c : Call) :
    (reader'.call c).1 = (reader.call c).1 ∧ Alike (reader.call c).2 (reader'.call c).2 ∧
      (c ≠ .fields → (reader'.call c).2.line = (reader.call c).2.line) := by
  have hlink : (reader'.call .link).1 = (reader.call .link).1 ∧
      Alike (reader.call .link).2 (reader'.call .link).2 ∧
      (reader'.call .link).2.line = (reader.call .link).2.line := by
    rcases h.readFields with ⟨fields, reader₁, reader₁', hread, hread', halike, hphase⟩ |
      ⟨e, reader₁, reader₁', hread, hread', halike, hline⟩
    · cases halike with
      | header h => exact absurd rfl hphase
      | links h =>
        rw [Reader.call, Reader.call, readLink_of_readFields_eq_ok hread rfl,
          readLink_of_readFields_eq_ok hread' rfl]
        exact call_link_of_alike h
      | done hline =>
        simp only [Reader.call, Reader.readLink, hread, hread']
        exact ⟨rfl, .done hline, hline⟩
    · rw [call_of_readFields_eq_error hread, call_of_readFields_eq_error hread']
      exact ⟨rfl, halike, hline⟩
  cases c with
  | fields =>
    rcases h.readFields with ⟨fields, reader₁, reader₁', hread, hread', halike, -⟩ |
      ⟨e, reader₁, reader₁', hread, hread', halike, -⟩
    · simp only [Reader.call, hread, hread']
      exact ⟨rfl, halike, fun hne => absurd rfl hne⟩
    · simp only [Reader.call, hread, hread']
      exact ⟨rfl, halike, fun hne => absurd rfl hne⟩
  | link => exact ⟨hlink.1, hlink.2.1, fun _ => hlink.2.2⟩
  | item =>
    rw [call_item, call_item]
    exact ⟨hlink.1, hlink.2.1, fun _ => hlink.2.2⟩

/-- The run of a session. -/
theorem Alike.transcript (h : Alike reader reader') (calls : List Call) :
    List.zipWith Entry.settled calls (reader.transcript calls).1 =
      List.zipWith Entry.settled calls (reader'.transcript calls).1 := by
  induction calls generalizing reader reader' with
  | nil => rfl
  | cons c calls ih =>
    obtain ⟨hreply, halike, hline⟩ := h.call c
    have hrest := ih halike
    rw [Reader.transcript, Reader.transcript] at hrest ⊢
    rw [transcript_cons, transcript_cons, List.zipWith_cons_cons, List.zipWith_cons_cons, hrest,
      hreply]
    congr 1
    simp only [Entry.settled]
    by_cases hc : c = .fields
    · rw [if_pos hc, if_pos hc]
    · rw [if_neg hc, if_neg hc, hline hc]

/-- However chunks are cut, the readers of them are alike. -/
theorem alike_of_chunks {source source' : Source} (hchunks : source.AllChunks)
    (hchunks' : source'.AllChunks) (hbytes : source.bytes = source'.bytes) (dialect : Dialect) :
    Alike (ofSource dialect source) (ofSource dialect source') := by
  have hmarked := Cursor.marked_chunks hchunks
  have hmarked' := Cursor.marked_chunks hchunks'
  rw [← hbytes] at hmarked'
  refine .header (Cursor.headerAlike_of_marked hmarked hmarked' (.refl 0 _) ?_)
  -- Chunks do not fail, and so the first line does not.
  intro reason rest h
  have hmem : Except.error reason ∈ (dumpLines source.bytes).map Except.ok :=
    h ▸ List.mem_cons_self
  simp at hmem

end Reader

/-! ## Whole dumps -/

/-- Sources that are the same once their chunks are joined are decoded to the same. -/
theorem decode_of_join_eq (dialect : Dialect) {source source' : Source}
    (h : source.join = source'.join) : decode dialect source = decode dialect source' := by
  obtain ⟨readings, hmarked, hmarked'⟩ := Cursor.marked_of_join_eq h
  rw [decode_of_marked hmarked hmarked' (.refl 0 readings), Decoded.upTo_none]

/-- Sources that are the same once their chunks are joined decode to the same. From sources of
chunks alone every reply in every session is the same, and so is the number of lines read once a
link has been asked for. -/
theorem short_reads_do_not_matter (dialect : Dialect) :
    (∀ source source' : Source, source.join = source'.join →
      decode dialect source = decode dialect source') ∧
    ∀ source source' : Source, source.AllChunks → source'.AllChunks →
      source.bytes = source'.bytes → ∀ calls : List Call,
        List.zipWith Entry.settled calls ((Reader.ofSource dialect source).transcript calls).1 =
          List.zipWith Entry.settled calls
            ((Reader.ofSource dialect source').transcript calls).1 := by
  refine ⟨fun source source' h => decode_of_join_eq dialect h, ?_⟩
  intro source source' hchunks hchunks' hbytes calls
  exact (Reader.alike_of_chunks hchunks hchunks' hbytes dialect).transcript calls

/-- Bytes that begin like a mark, cut inside of that beginning or not. The header is scanned up to a
different line, and nothing else differs. -/
theorem near_mark_over_short_reads :
    decode .rfc [.chunk 0xEF [], .chunk 0xBB [0x41, 0x0A], .lull, .chunk 0x42 []] =
        decode .rfc [.chunk 0xEF [0xBB, 0x41], .chunk 0x0A [], .lull, .chunk 0x42 []] ∧
      List.zipWith Entry.settled [.fields, .link, .item]
          ((Reader.ofSource .rfc [.chunk 0xEF [], .chunk 0xBB [0x41]]).transcript
            [.fields, .link, .item]).1 =
        List.zipWith Entry.settled [.fields, .link, .item]
          ((Reader.ofSource .rfc [.chunk 0xEF [0xBB, 0x41]]).transcript
            [.fields, .link, .item]).1 := by
  refine ⟨(short_reads_do_not_matter .rfc).1 _ _ rfl, ?_⟩
  refine (short_reads_do_not_matter .rfc).2 _ _ ?_ ?_ rfl _
  · simp [Source.AllChunks]
  · simp [Source.AllChunks]

end LinkDump
