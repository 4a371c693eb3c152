import LinkDump.Proofs.Readings
import LinkDump.Proofs.StreamRuns

/-! # Looking for a mark in front of anything
A fresh cursor looks for a byte order mark in bytes that come in any chunks and end with a failure,
a lull or the end of the source. Afterwards it reads what follows the mark, or all that was there.
How much of a broken mark has been consumed and put back cannot be told any more. `Cursor.Marked`
says so of the answer; it also covers the search that runs into the failure of its first line. -/

namespace LinkDump

/-- A part of a mark is no mark, so it is not dropped. -/
theorem dropMark_take_of_lt {count : Nat} (h : count < byteOrderMark.length) :
    dropMark (byteOrderMark.take count) = byteOrderMark.take count := by
  apply dropMark_of_unmarked
  intro hpre
  have hle := hpre.length_le
  rw [List.length_take] at hle
  omega

/-- No bytes that begin like a mark and stop there have a newline. -/
theorem newline_not_mem_of_isPrefix {bytes : Bytes} (h : bytes <+: byteOrderMark) :
    newline ∉ bytes := by
  intro hmem
  exact absurd (h.subset hmem) (by decide)

namespace Source

/-- Bytes in front of a source are in front of it whatever is put behind. -/
@[simp] theorem push_append (bs : Bytes) (source source' : Source) :
    push bs source ++ source' = push bs (source ++ source') := by
  cases bs <;> rfl

/-- Chunks that go on with a mark are consumed whole, and the search goes on behind them. -/
theorem AllChunks.matchMark_append_of_isPrefix {chunks : Source} (h : chunks.AllChunks)
    {matched : Nat} (hm : matched ≤ byteOrderMark.length)
    (hpre : chunks.bytes <+: byteOrderMark.drop matched) (source : Source) :
    matchMark matched (chunks ++ source) = matchMark (matched + chunks.bytes.length) source := by
  induction chunks generalizing matched with
  | nil => rfl
  | cons piece chunks ih =>
    obtain ⟨b, rest, rfl⟩ := h piece List.mem_cons_self
    rw [bytes_chunk] at hpre ⊢
    have hlen := hpre.length_le
    rw [List.length_append, List.length_drop] at hlen
    have hpos : 0 < (b :: rest).length := Nat.succ_pos _
    -- The whole chunk continues the mark.
    obtain ⟨tail, htail⟩ := hpre
    rw [List.append_assoc] at htail
    have hcontinue : continueMark matched (b :: rest) = some (b :: rest).length := by
      rw [continueMark_eq_some_iff]
      refine ⟨hm, by omega, ?_⟩
      rw [← htail, List.take_left, List.take_length]
    have hback : bytes chunks <+: byteOrderMark.drop (matched + (b :: rest).length) := by
      rw [← List.drop_drop, ← htail, List.drop_left]
      exact List.prefix_append _ _
    rw [List.cons_append, matchMark, if_pos (by omega), hcontinue]
    simp only [Nat.lt_irrefl, if_false]
    rw [ih (allChunks_chunk.mp h) (by omega) hback, List.length_append, Nat.add_assoc]

/-- A search that stops inside chunks has not seen what is behind them. -/
theorem AllChunks.matchMark_append {chunks chunks' : Source} (h : chunks.AllChunks)
    {matched count : Nat} (hmatch : chunks.matchMark matched = .ok count chunks')
    (hne : chunks' ≠ []) (source : Source) :
    matchMark matched (chunks ++ source) = .ok count (chunks' ++ source) := by
  induction chunks generalizing matched with
  | nil =>
    cases hmatch
    exact absurd rfl hne
  | cons piece chunks ih =>
    obtain ⟨b, rest, rfl⟩ := h piece List.mem_cons_self
    rw [matchMark] at hmatch
    rw [List.cons_append, matchMark]
    split at hmatch
    next hlt =>
      rw [if_pos hlt]
      split at hmatch
      next hnone =>
        cases hmatch
        rfl
      next taken hsome =>
        split at hmatch
        next hshort =>
          cases hmatch
          rw [if_pos hshort, push_append]
        next hall =>
          rw [if_neg hall]
          exact ih (allChunks_chunk.mp h) hmatch
    next hge =>
      cases hmatch
      rw [if_neg hge]
      rfl

end Source

namespace Cursor

/-- The answers to the search for a mark on a fresh cursor, if these are the readings behind the
mark. -/
inductive Marked (readings : List Reading) : Answer Bool → Prop
  /-- The readings are still to come. -/
  | passed {found : Bool} {cursor : Cursor} (h : cursor.Reads 0 readings) :
      Marked readings (.ok found cursor)
  /-- The first of them is a failure, and the search has met it. -/
  | failed {reason : Text} {rest : List Reading} {source : Source}
      (h : readings = .error reason :: rest) :
      Marked readings (.error (.input reason) ⟨source, .empty, 0⟩)

/-- Bytes that were consumed too early are joined with what is behind them, and wait in the slot. -/
theorem restoreLine_cases (source : Source) {seen : Bytes} (hne : seen ≠ [])
    (hmem : newline ∉ seen) :
    (∃ cursor : Cursor, restoreLine seen { source } = .ok () cursor ∧
      cursor.Reads 0 (prepend seen source.readings)) ∨
    ∃ reason rest source',
      restoreLine seen { source } = .error (.input reason) ⟨source', .empty, 0⟩ ∧
      prepend seen source.readings = .error reason :: rest := by
  rcases source.readLine_cases with ⟨rfl, hread⟩ | ⟨line, source', hok, hread⟩ |
    ⟨reason, source', herror, hread⟩
  · refine .inl ⟨⟨[], ⟨some (Utf8.decode (seen ++ []))⟩, 1⟩, rfl, ?_⟩
    rw [Source.readings_nil, prepend_nil_of_not_mem hne hmem, List.append_nil]
    exact .waiting hne rfl
  · refine .inl ⟨⟨source', ⟨some (Utf8.decode (seen ++ line))⟩, 1⟩, ?_, ?_⟩
    · simp only [restoreLine, hread]
      rfl
    · rw [hok, prepend_ok_of_not_mem hmem]
      exact .waiting (List.append_ne_nil_of_left_ne_nil hne line) rfl
  · refine .inr ⟨reason, source'.readings, source', ?_, ?_⟩
    · simp only [restoreLine, hread]
    · rw [herror, prepend_error_of_not_mem hmem]

/-- Where the search for a mark has stopped, the bytes that are left, together with those that were
consumed in vain, are what is still to come. -/
theorem marked_of_matchMark {source source' : Source} {count : Nat}
    (hle : count ≤ byteOrderMark.length) (hmatch : source.matchMark 0 = .ok count source') :
    Marked (prepend (dropMark (byteOrderMark.take count)) source'.readings)
      (consumeMark { source }) := by
  simp only [consumeMark, Slot.isEmpty_empty, if_true, hmatch]
  by_cases hmark : count = byteOrderMark.length
  · rw [if_pos hmark, hmark]
    exact .passed (.unread rfl)
  · rw [if_neg hmark, dropMark_take_of_lt (Nat.lt_of_le_of_ne hle hmark)]
    by_cases hzero : count = 0
    · rw [if_pos hzero, hzero]
      exact .passed (.unread rfl)
    · -- Part of a mark has been consumed, and no more than that part.
      have hne := take_mark_ne_nil hzero
      have hmem := newline_not_mem_take_mark count
      rw [if_neg hzero]
      rcases restoreLine_cases source' hne hmem with ⟨cursor, hrestore, hreads⟩ |
        ⟨reason, rest, source₁, hrestore, hrest⟩
      · rw [hrestore]
        exact .passed hreads
      · rw [hrestore]
        exact .failed hrest

variable {chunks : Source}

/-- Chunks that go on after a part of a mark, or start with a whole one, decide the search, whatever
is behind them. -/
theorem marked_of_not_isPrefix (h : chunks.AllChunks) (hpre : ¬chunks.bytes <+: byteOrderMark)
    (source : Source) :
    Marked (prepend (dropMark chunks.bytes) source.readings)
      (consumeMark { source := chunks ++ source }) := by
  obtain ⟨count, chunks', hmatch, hchunks', hfull⟩ := h.matchMark_eq (Nat.zero_le _)
  obtain ⟨-, hle, hbytes⟩ := Source.bytes_of_matchMark_eq_ok (Nat.zero_le _) hmatch
  rw [List.take_zero, List.nil_append] at hbytes
  rw [List.drop_zero] at hfull
  have hne : chunks' ≠ [] := by
    rintro rfl
    rw [Source.bytes_nil, List.append_nil] at hbytes
    exact hpre (hbytes ▸ List.take_prefix count byteOrderMark)
  have hdrop : dropMark chunks.bytes = dropMark (byteOrderMark.take count) ++ chunks'.bytes := by
    by_cases hmark : count = byteOrderMark.length
    · rw [hbytes, hmark, List.take_length, dropMark_mark_append]
      rfl
    · rw [dropMark_take_of_lt (Nat.lt_of_le_of_ne hle hmark), ← hbytes]
      exact dropMark_of_unmarked fun hpre => hmark (hfull hpre)
  have hmarked := marked_of_matchMark hle (h.matchMark_append hmatch hne source)
  rwa [hchunks'.readings_append, ← prepend_append, ← hdrop] at hmarked

/-- Chunks that are part of a mark leave the search to what is behind them. -/
theorem matchMark_of_isPrefix (h : chunks.AllChunks) (hpre : chunks.bytes <+: byteOrderMark)
    (source : Source) :
    (chunks ++ source).matchMark 0 = source.matchMark chunks.bytes.length ∧
      byteOrderMark.take chunks.bytes.length = chunks.bytes := by
  refine ⟨?_, (List.prefix_iff_eq_take.mp hpre).symm⟩
  rw [h.matchMark_append_of_isPrefix (Nat.zero_le _) hpre, Nat.zero_add]

/-- In front of the end, all bytes but the mark are still to come. -/
theorem marked_chunks (h : chunks.AllChunks) :
    Marked ((dumpLines chunks.bytes).map .ok) (consumeMark { source := chunks }) := by
  rw [dumpLines, ← prepend_nil_eq]
  by_cases hpre : chunks.bytes <+: byteOrderMark
  · obtain ⟨hmatch, htake⟩ := matchMark_of_isPrefix h hpre []
    rw [List.append_nil] at hmatch
    have hmarked := marked_of_matchMark hpre.length_le hmatch
    rwa [htake] at hmarked
  · have hmarked := marked_of_not_isPrefix h hpre []
    rwa [List.append_nil] at hmarked

/-- In front of a failure too, even if the search runs into it. -/
theorem marked_chunks_failure (h : chunks.AllChunks) (reason : Text) (source : Source) :
    Marked (prepend (dropMark chunks.bytes) (.error reason :: source.readings))
      (consumeMark { source := chunks ++ .failure reason :: source }) := by
  by_cases hpre : chunks.bytes <+: byteOrderMark
  · obtain ⟨hmatch, htake⟩ := matchMark_of_isPrefix h hpre (.failure reason :: source)
    by_cases hmark : chunks.bytes.length = byteOrderMark.length
    · -- The mark is complete, and the failure has not been met.
      rw [hmark, Source.matchMark_full] at hmatch
      have hmarked := marked_of_matchMark (Nat.le_refl _) hmatch
      rwa [← hmark, htake] at hmarked
    · have hlt : chunks.bytes.length < byteOrderMark.length :=
        Nat.lt_of_le_of_ne hpre.length_le hmark
      rw [← htake, dropMark_take_of_lt hlt, htake,
        prepend_error_of_not_mem (newline_not_mem_of_isPrefix hpre)]
      rw [Source.matchMark, if_pos hlt] at hmatch
      simp only [consumeMark, Slot.isEmpty_empty, if_true, hmatch]
      exact .failed rfl
  · exact marked_of_not_isPrefix h hpre (.failure reason :: source)

/-- A lull ends the search, and is over if the search was not. -/
theorem marked_chunks_lull (h : chunks.AllChunks) (source : Source) :
    Marked (if chunks.bytes <+: byteOrderMark ∧ chunks.bytes ≠ byteOrderMark
        then prepend chunks.bytes source.readings
        else prepend (dropMark chunks.bytes) (.ok [] :: source.readings))
      (consumeMark { source := chunks ++ .lull :: source }) := by
  by_cases hpre : chunks.bytes <+: byteOrderMark
  · obtain ⟨hmatch, htake⟩ := matchMark_of_isPrefix h hpre (.lull :: source)
    by_cases hmark : chunks.bytes.length = byteOrderMark.length
    · have heq : chunks.bytes = byteOrderMark := hpre.eq_of_length hmark
      rw [hmark, Source.matchMark_full] at hmatch
      have hmarked := marked_of_matchMark (Nat.le_refl _) hmatch
      rw [if_neg fun hand => hand.2 heq]
      rwa [← hmark, htake] at hmarked
    · have hlt : chunks.bytes.length < byteOrderMark.length :=
        Nat.lt_of_le_of_ne hpre.length_le hmark
      have hne : chunks.bytes ≠ byteOrderMark := fun heq => hmark (congrArg List.length heq)
      rw [Source.matchMark, if_pos hlt] at hmatch
      have hmarked := marked_of_matchMark hpre.length_le hmatch
      rw [if_pos ⟨hpre, hne⟩]
      rwa [dropMark_take_of_lt hlt, htake] at hmarked
  · rw [if_neg fun hand => hpre hand.1]
    exact marked_of_not_isPrefix h hpre (.lull :: source)

end Cursor

end LinkDump
