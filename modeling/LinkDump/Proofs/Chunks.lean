import LinkDump.Source

/-! # Sources of chunks
A source that neither fails nor has lulls is its bytes, however they are cut into chunks: a look
meets their first byte, a line read is their first physical line, and the search for a byte order
mark finds one exactly if they start with it. Only how much of a broken mark is consumed on the way
depends on the cut. -/

namespace LinkDump

/-! ## Physical lines of joined bytes -/

/-- Bytes with a newline have their first line, whatever comes behind them. -/
theorem firstLine_append_of_mem {front : Bytes} (h : newline ∈ front) (back : Bytes) :
    firstLine (front ++ back) = firstLine front := by
  induction front with
  | nil => cases h
  | cons b front ih =>
    rw [List.cons_append, firstLine, firstLine]
    by_cases hb : b = newline
    · rw [if_pos hb, if_pos hb]
    · have hmem : newline ∈ front := (List.mem_cons.mp h).resolve_left (Ne.symm hb)
      rw [if_neg hb, if_neg hb, ih hmem]

/-- Behind the first line of bytes with a newline comes the rest of them, and then the others. -/
theorem afterFirstLine_append_of_mem {front : Bytes} (h : newline ∈ front) (back : Bytes) :
    afterFirstLine (front ++ back) = afterFirstLine front ++ back := by
  induction front with
  | nil => cases h
  | cons b front ih =>
    rw [List.cons_append, afterFirstLine, afterFirstLine]
    by_cases hb : b = newline
    · rw [if_pos hb, if_pos hb]
    · have hmem : newline ∈ front := (List.mem_cons.mp h).resolve_left (Ne.symm hb)
      rw [if_neg hb, if_neg hb, ih hmem]

/-- Bytes without a newline are part of the first line of what follows. -/
theorem firstLine_append_of_not_mem {front : Bytes} (h : newline ∉ front) (back : Bytes) :
    firstLine (front ++ back) = front ++ firstLine back := by
  induction front with
  | nil => rfl
  | cons b front ih =>
    rw [List.mem_cons, not_or] at h
    have hb : b ≠ newline := Ne.symm h.1
    rw [List.cons_append, firstLine, if_neg hb, ih h.2, List.cons_append]

/-- Bytes without a newline do not change what comes behind the first line. -/
theorem afterFirstLine_append_of_not_mem {front : Bytes} (h : newline ∉ front) (back : Bytes) :
    afterFirstLine (front ++ back) = afterFirstLine back := by
  induction front with
  | nil => rfl
  | cons b front ih =>
    rw [List.mem_cons, not_or] at h
    have hb : b ≠ newline := Ne.symm h.1
    rw [List.cons_append, afterFirstLine, if_neg hb, ih h.2]

/-! ## The mark -/

/-- No part of the mark has a newline. -/
theorem newline_not_mem_take_mark (count : Nat) : newline ∉ byteOrderMark.take count :=
  fun hmem => absurd (List.mem_of_mem_take hmem) (by decide)

/-- Some bytes of the mark are not none. -/
theorem take_mark_ne_nil {count : Nat} (h : count ≠ 0) : byteOrderMark.take count ≠ [] := by
  rw [Ne, List.take_eq_nil_iff, not_or]
  exact ⟨h, by decide⟩

/-- Bytes without the byte order mark that they may start with. -/
def dropMark (bytes : Bytes) : Bytes :=
  if byteOrderMark <+: bytes then bytes.drop byteOrderMark.length else bytes

/-- A mark in front is dropped, and nothing behind it. -/
@[simp] theorem dropMark_mark_append (bytes : Bytes) :
    dropMark (byteOrderMark ++ bytes) = bytes := by
  rw [dropMark, if_pos (List.prefix_append _ _), List.drop_left]

/-- Bytes that do not start with a mark stay as they are. -/
theorem dropMark_of_unmarked {bytes : Bytes} (h : ¬byteOrderMark <+: bytes) :
    dropMark bytes = bytes := if_neg h

/-- All but the mark is left. -/
theorem dropMark_suffix (bytes : Bytes) : dropMark bytes <:+ bytes := by
  unfold dropMark
  split
  · exact List.drop_suffix _ _
  · exact List.suffix_rfl

/-- The lines of a dump, as bytes: its physical lines, after the mark that it may start with. -/
def dumpLines (bytes : Bytes) : List Bytes := physicalLines (dropMark bytes)

namespace Source

/-- A source that neither fails nor has lulls. -/
def AllChunks (source : Source) : Prop := ∀ piece ∈ source, ∃ b rest, piece = .chunk b rest

@[simp] theorem allChunks_nil : AllChunks [] := List.forall_mem_nil _

/-- A chunk in front leaves chunks alone. -/
@[simp] theorem allChunks_chunk {b : UInt8} {rest : Bytes} {source : Source} :
    AllChunks (.chunk b rest :: source) ↔ source.AllChunks := by
  simp [AllChunks]

/-- Bytes that are put in front leave chunks alone. -/
@[simp] theorem allChunks_push {bs : Bytes} {source : Source} :
    (push bs source).AllChunks ↔ source.AllChunks := by
  cases bs with
  | nil => rfl
  | cons b bs => exact allChunks_chunk

/-- A source of chunks without bytes is over. -/
theorem AllChunks.eq_nil {source : Source} (h : source.AllChunks) (hbytes : source.bytes = []) :
    source = [] := by
  cases source with
  | nil => rfl
  | cons piece source =>
    obtain ⟨b, rest, rfl⟩ := h piece List.mem_cons_self
    cases hbytes

/-- A look at chunks meets their first byte and changes nothing. -/
theorem AllChunks.look_eq {source : Source} (h : source.AllChunks) :
    ∃ bs, source.look = .ok bs source ∧ bs.head? = source.bytes.head? := by
  cases source with
  | nil => exact ⟨[], rfl, rfl⟩
  | cons piece source =>
    obtain ⟨b, rest, rfl⟩ := h piece List.mem_cons_self
    exact ⟨b :: rest, rfl, rfl⟩

/-- A line read from chunks is the first physical line of their bytes. -/
theorem AllChunks.readLine_eq {source : Source} (h : source.AllChunks) :
    ∃ source', source.readLine = .ok (firstLine source.bytes) source' ∧ source'.AllChunks ∧
      source'.bytes = afterFirstLine source.bytes := by
  induction source with
  | nil => exact ⟨[], rfl, allChunks_nil, rfl⟩
  | cons piece source ih =>
    obtain ⟨b, rest, rfl⟩ := h piece List.mem_cons_self
    rw [allChunks_chunk] at h
    rw [readLine, bytes_chunk]
    split
    next hmem =>
      -- The line ends in this chunk, whatever the others hold.
      rw [firstLine_append_of_mem hmem, afterFirstLine_append_of_mem hmem]
      exact ⟨_, rfl, allChunks_push.mpr h, bytes_push _ _⟩
    next hmem =>
      -- The whole chunk is part of the line, which goes on in the chunks behind it.
      obtain ⟨source', hread, hchunks, hbytes⟩ := ih h
      rw [hread, firstLine_append_of_not_mem hmem, afterFirstLine_append_of_not_mem hmem]
      exact ⟨source', rfl, hchunks, hbytes⟩

/-- Bytes that go on with a mark to its end are not refused. -/
theorem continueMark_of_agrees {matched : Nat} {bs back : Bytes}
    (hm : matched ≤ byteOrderMark.length) (h : byteOrderMark.drop matched <+: bs ++ back) :
    continueMark matched bs = some (min bs.length (byteOrderMark.length - matched)) := by
  rw [continueMark_eq_some_iff]
  refine ⟨hm, rfl, ?_⟩
  obtain ⟨tail, htail⟩ := h
  have hle : min bs.length (byteOrderMark.length - matched) ≤ bs.length := Nat.min_le_left _ _
  have hle' : min bs.length (byteOrderMark.length - matched) ≤
      (byteOrderMark.drop matched).length := by
    rw [List.length_drop]
    exact Nat.min_le_right _ _
  rw [← List.take_append_of_le_length hle, ← htail, List.take_append_of_le_length hle']

/-- The search for a mark does not stop short of one: seen bytes and unread bytes that start with a
mark together end it at the mark's full length. -/
theorem AllChunks.matchMark_eq {source : Source} (h : source.AllChunks) {matched : Nat}
    (hm : matched ≤ byteOrderMark.length) :
    ∃ count source', source.matchMark matched = .ok count source' ∧ source'.AllChunks ∧
      (byteOrderMark.drop matched <+: source.bytes → count = byteOrderMark.length) := by
  induction source generalizing matched with
  | nil =>
    refine ⟨matched, [], rfl, h, ?_⟩
    intro hprefix
    have hlen := hprefix.length_le
    rw [List.length_drop, bytes_nil, List.length_nil] at hlen
    omega
  | cons piece source ih =>
    obtain ⟨b, rest, rfl⟩ := h piece List.mem_cons_self
    have htail := allChunks_chunk.mp h
    rw [matchMark, bytes_chunk]
    split
    next hlt =>
      split
      next hnone =>
        -- The search ends here, but not if the bytes go on with the mark.
        refine ⟨_, _, rfl, h, ?_⟩
        intro hprefix
        rw [continueMark_of_agrees hm hprefix] at hnone
        cases hnone
      next taken hsome =>
        obtain ⟨-, rfl, htake⟩ := continueMark_eq_some_iff.mp hsome
        split
        next hshort =>
          refine ⟨_, _, rfl, allChunks_push.mpr htail, ?_⟩
          intro _
          omega
        next hall =>
          -- The chunk is used up, and what it took from the mark is its whole length.
          have hlen : min (b :: rest).length (byteOrderMark.length - matched) =
              (b :: rest).length := by omega
          rw [hlen] at htake ⊢
          have hm' : matched + (b :: rest).length ≤ byteOrderMark.length := by omega
          obtain ⟨count, source', hmatch, hchunks, hfull⟩ := ih htail hm'
          refine ⟨count, source', hmatch, hchunks, ?_⟩
          intro hprefix
          apply hfull
          rw [List.take_length] at htake
          rw [← List.take_append_drop (b :: rest).length (byteOrderMark.drop matched), ← htake,
            List.prefix_append_right_inj, List.drop_drop] at hprefix
          exact hprefix
    next hge =>
      refine ⟨_, _, rfl, h, ?_⟩
      intro _
      omega

end Source

end LinkDump
