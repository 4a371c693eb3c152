import LinkDump.Cursor
import LinkDump.Proofs.Chunks
import LinkDump.Proofs.Replacement

/-! # The search for a mark
A search that stops short of a mark has consumed whole chunks, which the first line starts with. So
the line that is put together from them and from what is behind them is the one that would have been
read anyway, and reading it leaves the same behind. The byte to peek at is the first of that line
once it has been decoded and encoded again, and that is still the first byte of a mark. -/

namespace LinkDump

/-- Bytes that are decoded and encoded again start with the same byte, or with a replacement
character. -/
theorem Utf8.head?_encode_decode (b : UInt8) (bytes : Bytes) :
    (encode (decode (b :: bytes))).head? = some b ∨
      (encode (decode (b :: bytes))).head? = (encode [replacement]).head? := by
  obtain ⟨all, hall⟩ : ∃ all, all = b :: bytes := ⟨_, rfl⟩
  have hreads := readsAs_decode all
  rw [← hall]
  generalize decode all = text at hreads
  cases hreads with
  | nil => cases hall
  | char c rest =>
    refine .inl ?_
    rw [encode_cons, List.head?_append_of_ne_nil _ String.utf8EncodeChar_ne_nil]
    rw [← List.head?_append_of_ne_nil _ String.utf8EncodeChar_ne_nil, hall, List.head?_cons]
  | broken => exact .inr rfl

namespace Source

variable {source source' : Source} {count : Nat}

/-- The bytes of a source in two parts are those of the first part, and then those of the second. -/
theorem bytes_append (front back : Source) :
    bytes (front ++ back) = bytes front ++ bytes back := by
  induction front with
  | nil => rfl
  | cons piece front ih =>
    cases piece with
    | chunk b rest => rw [List.cons_append, bytes_chunk, ih, bytes_chunk, List.append_assoc]
    | failure reason => exact ih
    | lull => exact ih

/-- A search that stops short of a mark stops between two pieces. -/
theorem isSuffix_of_matchMark {matched : Nat} (h : source.matchMark matched = .ok count source')
    (hshort : count < byteOrderMark.length) : source' <:+ source := by
  induction source generalizing matched with
  | nil => cases h; exact List.suffix_rfl
  | cons piece source ih =>
    cases piece with
    | lull =>
      rw [matchMark] at h
      split at h
      · cases h; exact List.suffix_cons _ _
      · cases h; exact List.suffix_rfl
    | failure reason =>
      rw [matchMark] at h
      split at h
      · cases h
      · cases h; exact List.suffix_rfl
    | chunk b rest =>
      rw [matchMark] at h
      split at h
      next hlt =>
        split at h
        · cases h; exact List.suffix_rfl
        next taken hsome =>
          obtain ⟨-, htaken, -⟩ := continueMark_eq_some_iff.mp hsome
          split at h
          · -- A piece is only cut where the mark ends.
            cases h
            omega
          · exact (ih h).trans (List.suffix_cons _ _)
      · cases h; exact List.suffix_rfl

/-- Chunks without a newline are part of the line that ends behind them. -/
theorem AllChunks.readLine_append {front : Source} {line : Bytes} (hfront : front.AllChunks)
    (hmem : newline ∉ front.bytes) (h : source.readLine = .ok line source') :
    (front ++ source).readLine = .ok (front.bytes ++ line) source' := by
  induction front with
  | nil => exact h
  | cons piece front ih =>
    obtain ⟨b, rest, rfl⟩ := hfront piece List.mem_cons_self
    rw [bytes_chunk, List.mem_append, not_or] at hmem
    rw [List.cons_append, readLine, if_neg hmem.1, ih (allChunks_chunk.mp hfront) hmem.2,
      bytes_chunk, List.append_assoc]

/-- What a search has consumed that stops short of a mark, and the line that is read behind it, are
together the line that would have been read. -/
theorem AllChunks.readLine_of_matchMark (hchunks : source.AllChunks)
    (h : source.matchMark 0 = .ok count source') (hshort : count < byteOrderMark.length) :
    ∃ line rest, source'.readLine = .ok line rest ∧
      source.readLine = .ok (byteOrderMark.take count ++ line) rest := by
  obtain ⟨-, -, hbytes⟩ := bytes_of_matchMark_eq_ok (Nat.zero_le _) h
  obtain ⟨front, hsplit⟩ := isSuffix_of_matchMark h hshort
  have hfront : AllChunks front := fun piece hpiece =>
    hchunks piece (hsplit ▸ List.mem_append_left _ hpiece)
  have hback : source'.AllChunks := fun piece hpiece =>
    hchunks piece (hsplit ▸ List.mem_append_right _ hpiece)
  have hconsumed : bytes front = byteOrderMark.take count := by
    rw [← hsplit, bytes_append, List.take_zero, List.nil_append] at hbytes
    exact List.append_cancel_right hbytes
  have hmem : newline ∉ bytes front := by
    rw [hconsumed]
    exact newline_not_mem_take_mark count
  obtain ⟨rest, hread, -⟩ := hback.readLine_eq
  refine ⟨_, rest, hread, ?_⟩
  rw [← hsplit, hfront.readLine_append hmem hread, hconsumed]

end Source

namespace Cursor

variable {source source' : Source} {count : Nat}

/-- What a read with an empty slot gives, by what the source gives. -/
theorem nextRawLine_of_readLine {bytes : Bytes} {rest : Source}
    (h : source.readLine = .ok bytes rest) (n : Nat) :
    nextRawLine ⟨source, .empty, n⟩ =
      .ok (if bytes = [] then none else some (Utf8.decode bytes))
        ⟨rest, .empty, if bytes = [] then n else n + 1⟩ := by
  cases bytes with
  | nil => simp only [nextRawLine, Slot.take, Slot.held_empty, h, if_true]
  | cons b bytes =>
    rw [if_neg (List.cons_ne_nil b bytes), if_neg (List.cons_ne_nil b bytes)]
    simp only [nextRawLine, Slot.take, Slot.held_empty, h]

/-- A line that starts with part of a mark still does so in its first byte once it is decoded. -/
theorem head?_encode_decode_of_mark (hpos : count ≠ 0) (line : Bytes) :
    (Utf8.encode (Utf8.decode (byteOrderMark.take count ++ line))).head? =
      byteOrderMark.head? := by
  obtain ⟨k, rfl⟩ := Nat.exists_eq_succ_of_ne_zero hpos
  rcases Utf8.head?_encode_decode 0xEF ([0xBB, 0xBF].take k ++ line) with hhead | hhead
  · exact hhead
  · rw [show byteOrderMark.take (k + 1) ++ line = 0xEF :: ([0xBB, 0xBF].take k ++ line) from rfl,
      hhead]
    decide

/-- Bytes that turn out to be no mark are read as if no mark had been searched for, and the first of
them can be peeked at. -/
theorem consumeMark_of_short (hchunks : source.AllChunks) (hchunks' : source'.AllChunks)
    (h : source.matchMark 0 = .ok count source') (hshort : count < byteOrderMark.length) (n : Nat) :
    ∃ cursor, consumeMark ⟨source, .empty, n⟩ = .ok false cursor ∧
      (∃ line after, cursor.nextRawLine = .ok line after ∧
        nextRawLine ⟨source, .empty, n⟩ = .ok line after) ∧
      cursor.peekByte = .ok source.bytes.head? cursor := by
  obtain ⟨line, rest, hread, hwhole⟩ := hchunks.readLine_of_matchMark h hshort
  obtain ⟨-, -, hbytes⟩ := Source.bytes_of_matchMark_eq_ok (Nat.zero_le _) h
  rw [List.take_zero, List.nil_append] at hbytes
  have hne : count ≠ byteOrderMark.length := Nat.ne_of_lt hshort
  simp only [consumeMark, Slot.isEmpty_empty, if_true, h, if_neg hne]
  by_cases hzero : count = 0
  · -- Nothing has been consumed.
    rw [hzero, List.take_zero, List.nil_append] at hbytes hwhole
    obtain ⟨bs, hlook, hhead⟩ := hchunks'.look_eq
    rw [if_pos hzero]
    refine ⟨_, rfl, ⟨_, _, nextRawLine_of_readLine hread n, nextRawLine_of_readLine hwhole n⟩, ?_⟩
    simp only [peekByte, Slot.held_empty, hlook, hhead, hbytes]
  · -- The first line waits in the slot, and is counted.
    have hfront := take_mark_ne_nil hzero
    have hwholeNe : byteOrderMark.take count ++ line ≠ [] :=
      List.append_ne_nil_of_left_ne_nil hfront line
    simp only [if_neg hzero, restoreLine, hread, pushBack, Slot.put_empty]
    refine ⟨_, rfl, ⟨_, _, rfl, ?_⟩, ?_⟩
    · rw [nextRawLine_of_readLine hwhole, if_neg hwholeNe, if_neg hwholeNe]
    · rw [hbytes, List.head?_append_of_ne_nil _ hfront, List.head?_take, if_neg hzero,
        ← head?_encode_decode_of_mark hzero line]
      rfl

/-- A cursor with an empty slot in front of chunks, and any number of lines counted, finds a byte
order mark exactly if the unread bytes start with one. Then just the mark has been consumed.
Otherwise the next read gives the same line and leaves the same cursor as without the search, and
until then the first unread byte can be peeked at. With a line in the slot, the search finds nothing
and changes nothing. -/
theorem mark_found_or_unseen :
    (∀ {source : Source} (n : Nat), source.AllChunks →
      ∃ found cursor, consumeMark ⟨source, .empty, n⟩ = .ok found cursor ∧
        (found = true ↔ byteOrderMark <+: source.bytes) ∧
        (found = true → cursor.slot = .empty ∧ cursor.line = n ∧
          source.bytes = byteOrderMark ++ cursor.source.bytes) ∧
        (found = false →
          (∃ line after, cursor.nextRawLine = .ok line after ∧
            nextRawLine ⟨source, .empty, n⟩ = .ok line after) ∧
          cursor.peekByte = .ok source.bytes.head? cursor)) ∧
    ∀ {cursor : Cursor}, cursor.slot ≠ .empty → cursor.consumeMark = .ok false cursor := by
  constructor
  · intro source n hchunks
    obtain ⟨count, source', hmatch, hchunks', hfull⟩ := hchunks.matchMark_eq (Nat.zero_le _)
    obtain ⟨-, hle, hbytes⟩ := Source.bytes_of_matchMark_eq_ok (Nat.zero_le _) hmatch
    rw [List.take_zero, List.nil_append] at hbytes
    rw [List.drop_zero] at hfull
    by_cases hcount : count = byteOrderMark.length
    · -- The mark is complete.
      rw [hcount, List.take_length] at hbytes
      refine ⟨true, ⟨source', .empty, n⟩, ?_, ?_, fun _ => ⟨rfl, rfl, hbytes⟩, nofun⟩
      · simp only [consumeMark, Slot.isEmpty_empty, if_true, hmatch, if_pos hcount]
      · exact iff_of_true rfl (hbytes ▸ List.prefix_append _ _)
    · -- The search has stopped short, so the bytes do not start with a mark.
      obtain ⟨cursor, hsearch, hread, hpeek⟩ :=
        consumeMark_of_short hchunks hchunks' hmatch (Nat.lt_of_le_of_ne hle hcount) n
      refine ⟨false, cursor, hsearch, ?_, nofun, fun _ => ⟨hread, hpeek⟩⟩
      exact iff_of_false Bool.false_ne_true fun hprefix => hcount (hfull hprefix)
  · intro cursor hslot
    rw [consumeMark, if_neg fun hempty => hslot (Slot.isEmpty_iff.mp hempty)]

/-- A mark in two chunks is found. Two bytes of a mark in front of the end are kept, also in two
chunks, though they are no character. With a line in the slot they are left alone. -/
theorem mark_found_or_unseen_of_split_marks :
    let whole : Source := [.chunk 0xEF [], .chunk 0xBB [0xBF, 0x23]]
    let broken : Source := [.chunk 0xEF [], .chunk 0xBB []]
    let waiting : Cursor := ⟨broken, ⟨some []⟩, 4⟩
    (∃ cursor, consumeMark ⟨whole, .empty, 4⟩ = .ok true cursor ∧ cursor.slot = .empty ∧
      cursor.line = 4 ∧ cursor.source.bytes = [0x23]) ∧
    (∃ cursor after, consumeMark ⟨broken, .empty, 4⟩ = .ok false cursor ∧
      cursor.peekByte = .ok (some 0xEF) cursor ∧
      cursor.nextRawLine = .ok (some [Utf8.replacement]) after ∧ after.line = 5) ∧
    waiting.consumeMark = .ok false waiting := by
  intro whole broken waiting
  have hwhole : whole.AllChunks := by simp [whole]
  have hbroken : broken.AllChunks := by simp [broken]
  refine ⟨?_, ?_, mark_found_or_unseen.2 (by decide)⟩
  · obtain ⟨found, cursor, hsearch, hiff, hfound, -⟩ := mark_found_or_unseen.1 4 hwhole
    obtain rfl : found = true := hiff.mpr (by decide)
    obtain ⟨hslot, hline, hbytes⟩ := hfound rfl
    have hrest : whole.bytes = byteOrderMark ++ [0x23] := rfl
    rw [hrest] at hbytes
    exact ⟨cursor, hsearch, hslot, hline, (List.append_cancel_left hbytes).symm⟩
  · obtain ⟨found, cursor, hsearch, hiff, -, hunseen⟩ := mark_found_or_unseen.1 4 hbroken
    obtain rfl : found = false :=
      Bool.eq_false_iff.mpr fun htrue => absurd (hiff.mp htrue) (by decide)
    obtain ⟨⟨line, after, hread, hread'⟩, hpeek⟩ := hunseen rfl
    have hplain : nextRawLine ⟨broken, .empty, 4⟩ =
        .ok (some [Utf8.replacement]) ⟨[], .empty, 5⟩ := rfl
    rw [hplain] at hread'
    cases hread'
    exact ⟨cursor, _, hsearch, hpeek, hread, rfl⟩

end Cursor

end LinkDump
