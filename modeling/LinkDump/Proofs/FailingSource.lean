import LinkDump.Proofs.AlikeDecoding
import LinkDump.Proofs.Causes
import LinkDump.Proofs.DumpMeaning

/-! # Sources that fail
When a source fails, all that came before the failure and ended with a newline has been decoded, and
nothing else has. Such a dump is compared with the dump of its complete lines alone: `Decoded.upTo`
says what the failure changes. The line that it breaks off is lost, and so is a record of fixed
width that might still have gone on. -/

namespace LinkDump

/-! ## Complete lines and the mark -/

/-- A mark in front of some bytes has no part in what their complete lines are. -/
theorem completeLines_dropMark (bytes : Bytes) :
    completeLines (dropMark bytes) = dropMark (completeLines bytes) := by
  by_cases hmark : byteOrderMark <+: bytes
  · obtain ⟨rest, rfl⟩ := hmark
    rw [dropMark_mark_append]
    by_cases hmem : newline ∈ rest
    · rw [completeLines_append hmem, dropMark_mark_append]
    · have hnone : newline ∉ byteOrderMark ++ rest := by
        rw [List.mem_append, not_or]
        exact ⟨newline_not_mem_of_isPrefix List.prefix_rfl, hmem⟩
      rw [completeLines_of_not_mem hmem, completeLines_of_not_mem hnone]
      rfl
  · rw [dropMark_of_unmarked hmark, dropMark_of_unmarked]
    exact fun h => hmark (h.trans (isPrefix_completeLines bytes))

/-- A mark has no newline, so the newlines are the same without it. -/
theorem count_dropMark (bytes : Bytes) :
    (dropMark bytes).count newline = bytes.count newline := by
  by_cases hmark : byteOrderMark <+: bytes
  · obtain ⟨rest, rfl⟩ := hmark
    rw [dropMark_mark_append, List.count_append,
      List.count_eq_zero_of_not_mem (newline_not_mem_of_isPrefix List.prefix_rfl), Nat.zero_add]
  · rw [dropMark_of_unmarked hmark]

/-- The lines of a dump that are complete, in front of a failure and on their own. -/
theorem agreeUpTo_failure (bytes : Bytes) (reason : Text) (rest : List Reading) :
    AgreeUpTo (some ⟨bytes.count newline, .input reason⟩) 0
      ((dumpLines (completeLines bytes)).map .ok)
      (prepend (dropMark bytes) (.error reason :: rest)) := by
  have hlength : 0 + (physicalLines (completeLines (dropMark bytes))).length =
      bytes.count newline := by
    rw [length_physicalLines_completeLines, count_dropMark, Nat.zero_add]
  rw [dumpLines, ← completeLines_dropMark, prepend_error_eq, ← hlength]
  exact .lines (fun _ => ne_nil_of_mem_physicalLines) 0 reason rest

/-! ## Whole dumps -/

/-- A failure of the source never gives part of a record. Compared with the dump of the complete
lines in front of it, decoding ends with the same refused line if there is one. If there is none it
fails with the failure of the source, at the number of complete lines, with the same fields and with
the links that are settled: all of them, except that a record of fixed width might have gone on. No
later call gives another link. -/
theorem decode_of_failing_source {chunks : Source} (hchunks : chunks.AllChunks) (dialect : Dialect)
    (reason : Text) (after : Source) :
    (∀ e, (decode dialect (.ofBytes (completeLines chunks.bytes))).failure = some e →
      e.cause.line?.isSome ∧
        decode dialect (chunks ++ .failure reason :: after) =
          decode dialect (.ofBytes (completeLines chunks.bytes))) ∧
    (∀ fields links line,
      decode dialect (.ofBytes (completeLines chunks.bytes)) = ⟨fields, links, none, line⟩ →
      decode dialect (chunks ++ .failure reason :: after) =
        ⟨fields, dialect.settled links, some ⟨chunks.bytes.count newline, .input reason⟩,
          chunks.bytes.count newline⟩) ∧
    ∀ calls : List Call,
      ((Reader.ofSource dialect (chunks ++ .failure reason :: after)).readLinks.2.2.transcript
          calls).1 =
        calls.map fun c =>
          ⟨Reply.afterEnd (decode dialect (chunks ++ .failure reason :: after)).fields c,
            (decode dialect (chunks ++ .failure reason :: after)).line⟩ := by
  have hbytes : (Source.ofBytes (completeLines chunks.bytes)).AllChunks := by
    simp [Source.ofBytes]
  have hmarked := Cursor.marked_chunks hbytes
  rw [Source.bytes_ofBytes] at hmarked
  have hupTo : decode dialect (chunks ++ .failure reason :: after) =
      (decode dialect (.ofBytes (completeLines chunks.bytes))).upTo
        (some ⟨chunks.bytes.count newline, .input reason⟩) dialect :=
    decode_of_marked hmarked (Cursor.marked_chunks_failure hchunks reason after)
      (agreeUpTo_failure chunks.bytes reason after.readings)
  refine ⟨?_, ?_, ?_⟩
  · intro e hfailure
    refine ⟨?_, ?_⟩
    · have hfault := faultOf_of_decode hfailure
      rw [hbytes.failures_eq] at hfault
      exact hfault.isSome_line?
    · rw [hupTo, Decoded.upTo_of_failure hfailure]
  · intro fields links line hdecode
    rw [hupTo, hdecode, Decoded.upTo_ended]
  · intro calls
    rw [Reader.transcript_of_done (Reader.phase_readLinks _)]
    rfl

/-- Behind a mark and `#A:1`, the records `a|x` and `b|y`, then part of a line and a failure. The
second record might have gone on, and is lost. -/
theorem decode_up_to_failure :
    decode (.fixedWidth 1) [.chunk 0xEF [0xBB], .chunk 0xBF [0x23, 0x41, 0x3A, 0x31, 0x0A, 0x0A],
        .chunk 0x61 [0x7C, 0x78, 0x0A, 0x62, 0x7C, 0x79, 0x0A, 0x63], .failure ['i', 'o'],
        .chunk 0x7C [0x0A]] =
      ⟨[⟨['A'], ['1']⟩], [⟨['a'], ['x'], []⟩], some ⟨4, .input ['i', 'o']⟩, 4⟩ := by
  have hchunks : Source.AllChunks [.chunk 0xEF [0xBB],
      .chunk 0xBF [0x23, 0x41, 0x3A, 0x31, 0x0A, 0x0A],
      .chunk 0x61 [0x7C, 0x78, 0x0A, 0x62, 0x7C, 0x79, 0x0A, 0x63]] := by
    simp
  have hwhole : decode (.fixedWidth 1) (.ofBytes (completeLines (Source.bytes [.chunk 0xEF [0xBB],
      .chunk 0xBF [0x23, 0x41, 0x3A, 0x31, 0x0A, 0x0A],
      .chunk 0x61 [0x7C, 0x78, 0x0A, 0x62, 0x7C, 0x79, 0x0A, 0x63]]))) =
      ⟨[⟨['A'], ['1']⟩], [⟨['a'], ['x'], []⟩, ⟨['b'], ['y'], []⟩], none, 4⟩ :=
    decode_of_fits (by simp [Source.ofBytes]) [⟨['A'], ['1']⟩]
      [⟨['a'], ['x', '\n'], []⟩, ⟨['b'], ['y', '\n'], []⟩] (by decide) (by decide) (by decide)
  exact (decode_of_failing_source hchunks (.fixedWidth 1) ['i', 'o'] [.chunk 0x7C [0x0A]]).2.1
    _ _ _ hwhole

end LinkDump
