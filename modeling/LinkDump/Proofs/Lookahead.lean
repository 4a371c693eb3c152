import LinkDump.Proofs.SessionLines

/-! # Lookahead
A reader of a dump in chunks never reads ahead by more than one line. All that has left the source
are the mark and the lines that are counted, and all of these but the last belong to the header or
to a link that has been given. Where every link takes one line the last one does too. A record needs
one line more, which then waits, and so may the scan of the header. -/

namespace LinkDump

/-- The line of a dump with this number, counted from one. -/
def dumpLine? (dump : Bytes) : Nat → Option Bytes
  | 0 => none
  | count + 1 => (dumpLines dump)[count]?

/-- What is unread of a dump is what follows its mark and its first `count` lines. -/
def Source.UnreadBehind (source : Source) (dump : Bytes) (count : Nat) : Prop :=
  dropMark dump = ((dumpLines dump).take count).flatten ++ source.bytes

/-- The line behind the first `count` ones is the one with the next number. -/
theorem dumpLine?_of_drop_eq_cons {dump line : Bytes} {rest : List Bytes} {count : Nat}
    (h : (dumpLines dump).drop count = line :: rest) : dumpLine? dump (count + 1) = some line := by
  rw [dumpLine?, ← List.head?_drop, h, List.head?_cons]

/-- A source that has all further lines to give is unread behind those before them. -/
theorem Source.unreadBehind_of_drop {source : Source} {dump : Bytes} {count : Nat}
    (h : source.bytes = ((dumpLines dump).drop count).flatten) :
    source.UnreadBehind dump count := by
  rw [UnreadBehind, h, ← List.flatten_append, List.take_append_drop, dumpLines,
    flatten_physicalLines]

/-- Between two lines all lines that were counted have been read, and nothing else. They are the
lines in front of the cursor, and at most the one behind it, which waits. -/
theorem Cursor.StandsAt.unreadBehind {cursor : Cursor} {dump : Bytes} {count : Nat}
    (h : cursor.StandsAt count ((dumpLines dump).drop count)) :
    cursor.source.UnreadBehind dump cursor.line ∧
      (cursor.slot = .empty ∧ cursor.line = count ∨
        cursor.line = count + 1 ∧ ∃ raw, dumpLine? dump cursor.line = some raw ∧
          cursor.slot = ⟨some (Utf8.decode raw)⟩) := by
  rcases h.slot_cases with ⟨hslot, hline, hbytes⟩ | ⟨raw, rest, hlines, hslot, hline, hbytes⟩
  · rw [hline]
    exact ⟨Source.unreadBehind_of_drop hbytes, .inl ⟨hslot, rfl⟩⟩
  · rw [hline]
    refine ⟨Source.unreadBehind_of_drop ?_, .inr ⟨rfl, raw, ?_, hslot⟩⟩
    · rw [hbytes, ← drop_add_length (show _ = [raw] ++ rest from hlines)]
      rfl
    · exact dumpLine?_of_drop_eq_cons hlines

/-- A reader never reads ahead by more than one line, however its dump is cut into chunks and
whatever is called. Where every link takes one line, a link that is given leaves nothing in the slot
and everything unread behind its own line. Where sources have a fixed width, it leaves nothing at
all, or in the slot the line that starts the next record, and everything unread behind that line. A
scan of the header that succeeds has read the lines of the header, and at most one line more, which
waits. -/
theorem lookahead_at_most_one_line {source : Source} (hchunks : source.AllChunks)
    (dialect : Dialect) :
    (∀ (before : List Call) (c : Call) (link : Link),
      let reader := ((Reader.ofSource dialect source).transcript before).2
      let next := (reader.call c).2
      (reader.call c).1 = .link link →
        next.cursor.source.UnreadBehind source.bytes next.line ∧
        (∀ parse, dialect.ofLine = some parse → next.cursor.slot = .empty ∧
          ∃ raw, dumpLine? source.bytes next.line = some raw ∧
            parse (Utf8.decode raw) = .ok link) ∧
        ∀ width, dialect = .fixedWidth width →
          next.cursor.slot = .empty ∧ next.cursor.source.bytes = [] ∨
          ∃ raw, dumpLine? source.bytes next.line = some raw ∧
            next.cursor.slot = ⟨some (Utf8.decode raw)⟩ ∧ BarAt width (Utf8.decode raw)) ∧
    ∀ fields reader, (Reader.ofSource dialect source).readFields = .ok fields reader →
      reader.cursor.source.UnreadBehind source.bytes reader.line ∧
      (reader.cursor.slot = .empty ∧
          reader.line = headerLength (dumpTexts source.bytes) ∨
        reader.line = headerLength (dumpTexts source.bytes) + 1 ∧
          ∃ raw, dumpLine? source.bytes reader.line = some raw ∧
            reader.cursor.slot = ⟨some (Utf8.decode raw)⟩) := by
  constructor
  · intro before c link reader next hreply
    have hplaced : reader.Placed dialect source :=
      Reader.Placed.fresh.transcript hchunks before
    obtain ⟨cursor, cursor', fields, count, hnext, hread, hstands⟩ :=
      hplaced.exists_readLink_eq hchunks hreply
    have hcursor : next.cursor = cursor' := congrArg Reader.cursor hnext
    rw [Reader.line, hcursor]
    refine ⟨?_, ?_, ?_⟩
    · obtain ⟨count', hstands'⟩ := hstands.exists_of_readLink hread
      exact hstands'.unreadBehind.1
    · intro parse hparse
      obtain ⟨raw, rest, hlines, hparsed, hstands', hslot⟩ := hstands.line_of_readLink hparse hread
      refine ⟨hslot, raw, ?_, hparsed⟩
      -- Nothing waits, so the last line that was counted is the one of the link.
      rcases hstands'.slot_cases with ⟨-, hline, -⟩ | ⟨other, more, -, hheld, -⟩
      · rw [hline]
        exact dumpLine?_of_drop_eq_cons hlines
      · rw [hslot] at hheld
        cases hheld
    · rintro width rfl
      obtain ⟨record, front, back, hlines, -, -, -, hwaits, hbar⟩ :=
        hstands.record_of_readLink hread
      have hback := drop_add_length hlines
      rcases hwaits.standsAt.slot_cases with
        ⟨hslot, -, hbytes⟩ | ⟨raw, rest, hcons, hslot, hline, -⟩
      · refine .inl ⟨hslot, ?_⟩
        by_cases hnil : back = []
        · rw [hbytes, hnil, List.flatten_nil]
        · exact absurd hslot (hwaits.slot_ne_empty hnil)
      · rw [hcons] at hback hbar
        refine .inr ⟨raw, ?_, hslot, hbar _ rfl⟩
        rw [hline]
        exact dumpLine?_of_drop_eq_cons hback
  · intro fields reader hread
    cases hscan : (Cursor.scanHeader { source }).2 with
    | error cause cursor =>
      rw [Reader.readFields_of_scanHeader_eq_error dialect hscan] at hread
      cases hread
    | ok value cursor =>
      rw [Reader.readFields_of_scanHeader_eq_ok dialect hscan] at hread
      cases hread
      exact (Cursor.standsAt_of_scanHeader_eq_ok hchunks hscan).unreadBehind

/-- Two bytes of a mark that is none, and the bar behind them in another chunk. The scan of the
header has read the first line. The first record goes on over a second line, and the line behind it
waits; where the first bar ends the source, the first line alone is the link. -/
theorem lookahead_behind_broken_mark :
    (∃ reader, (Reader.ofSource (.fixedWidth 3) [.chunk 0xEF [0xBB], .chunk 0x7C [0x78, 0x0A],
        .chunk 0x79 [0x0A, 0x61, 0x62, 0x63, 0x7C]]).readFields = .ok [] reader ∧
      reader.line = 1 ∧ reader.cursor.source.UnreadBehind
        [0xEF, 0xBB, 0x7C, 0x78, 0x0A, 0x79, 0x0A, 0x61, 0x62, 0x63, 0x7C] reader.line) ∧
    (let next := ((Reader.ofSource (.fixedWidth 3) [.chunk 0xEF [0xBB], .chunk 0x7C [0x78, 0x0A],
        .chunk 0x79 [0x0A, 0x61, 0x62, 0x63, 0x7C]]).call .link).2
     next.line = 3 ∧ ∃ raw, dumpLine?
          [0xEF, 0xBB, 0x7C, 0x78, 0x0A, 0x79, 0x0A, 0x61, 0x62, 0x63, 0x7C] next.line = some raw ∧
        next.cursor.slot = ⟨some (Utf8.decode raw)⟩ ∧ BarAt 3 (Utf8.decode raw)) ∧
    (let next := ((Reader.ofSource .variableWidth [.chunk 0xEF [0xBB], .chunk 0x7C [0x78, 0x0A],
        .chunk 0x79 [0x0A, 0x61, 0x62, 0x63, 0x7C]]).call .item).2
     next.line = 1 ∧ next.cursor.slot = .empty ∧ ∃ raw, dumpLine?
          [0xEF, 0xBB, 0x7C, 0x78, 0x0A, 0x79, 0x0A, 0x61, 0x62, 0x63, 0x7C] next.line = some raw ∧
        Link.ofFirstBar (Utf8.decode raw) = .ok ⟨['\uFFFD'], ['x'], []⟩) := by
  have hchunks : Source.AllChunks [.chunk 0xEF [0xBB], .chunk 0x7C [0x78, 0x0A],
      .chunk 0x79 [0x0A, 0x61, 0x62, 0x63, 0x7C]] := by
    simp
  obtain ⟨hlinks, hscan⟩ := lookahead_at_most_one_line hchunks (.fixedWidth 3)
  obtain ⟨hlinks', -⟩ := lookahead_at_most_one_line hchunks .variableWidth
  obtain ⟨-, -, hfixed⟩ :=
    hlinks [] .link ⟨['\uFFFD'], ['x', '\n', 'y'], []⟩ (by decide +kernel)
  obtain ⟨-, hline, -⟩ := hlinks' [] .item ⟨['\uFFFD'], ['x'], []⟩ (by decide +kernel)
  refine ⟨⟨_, rfl, rfl, (hscan _ _ rfl).1⟩, ⟨by decide +kernel, ?_⟩, by decide +kernel,
    hline _ rfl⟩
  exact (hfixed 3 rfl).resolve_left fun hend => absurd hend.1 (by decide +kernel)

end LinkDump
