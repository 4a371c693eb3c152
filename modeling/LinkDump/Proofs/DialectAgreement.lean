import LinkDump.Proofs.BarsRoundTrip
import LinkDump.Proofs.LineContents
import LinkDump.Proofs.StreamAgreement

/-! # What the dialects have in common
The header is none of a dialect's business, so the first call for the fields is answered alike in
all of them. Behind it, two dialects say the same of lines that both can read. With one bar in each
line it does not matter whether that bar is the only one that is allowed or the first of many, and
with the first bar always at the same offset no line continues the one before it, so that a record
of fixed width is one line. In either case all items are links, and the same ones. -/

namespace LinkDump

/-- The first bar of a line is its byte at offset `width`. -/
def FirstBarAt (width : Nat) (line : Text) : Prop :=
  BarAt width line ∧ ∀ offset < width, ¬BarAt offset line

instance (width : Nat) (line : Text) : Decidable (FirstBarAt width line) :=
  inferInstanceAs (Decidable (_ ∧ ∀ offset < width, _))

/-! ## One line -/

/-- The bar at the right offset is the one that ends the source. -/
theorem FirstBarAt.exists_source {width : Nat} {line : Text} (h : FirstBarAt width line) :
    ∃ source text, line = source ++ '|' :: text ∧ Utf8.size source = width ∧ '|' ∉ source := by
  obtain ⟨hbar, hfirst⟩ := h
  obtain ⟨source, text, rfl, hsize⟩ := barAt_iff_exists.mp hbar
  refine ⟨source, text, rfl, hsize, ?_⟩
  intro hmem
  -- A bar in the source would be an earlier one.
  obtain ⟨before, after, rfl⟩ := List.append_of_mem hmem
  have hlt : Utf8.size before < width := by
    rw [← hsize, Utf8.size_append, Utf8.size_cons]
    have := Char.utf8Size_pos '|'
    omega
  apply hfirst _ hlt
  rw [barAt_iff_exists]
  exact ⟨before, after ++ '|' :: text, by simp, rfl⟩

/-- With a single bar, what is between bars is what is in front of the first one and behind it. -/
theorem Link.exists_of_count_eq_one {line : Text} (h : line.count '|' = 1) :
    ∃ link : Link, ofBars (dropLineBreak line) = .ok link ∧ ofFirstBar line = .ok link := by
  have hmem : '|' ∈ line := by
    rw [← List.count_pos_iff, h]
    exact Nat.zero_lt_one
  obtain ⟨source, text, rfl, hsource⟩ := List.eq_append_cons_of_mem hmem
  have htext : '|' ∉ text := by
    rw [List.count_append, List.count_cons_self, List.count_eq_zero.mpr hsource] at h
    rw [← List.count_eq_zero]
    omega
  refine ⟨⟨source, dropLineBreak text, []⟩, ?_, ofFirstBar_append_bar hsource text⟩
  rw [dropLineBreak_append_cons (by decide) (by decide), ← render_of_note_nil]
  apply ofBars_render
  simpa [hsource] using mt mem_of_mem_dropLineBreak htext

/-! ## Many lines -/

/-- Where the first bar is always in place, each line is a record, and its link is that of the line
on its own. -/
theorem cut_of_firstBarAt {width : Nat} {lines : List Text}
    (h : ∀ line ∈ lines, FirstBarAt width line) :
    (RecordLines.cut width lines).1 = [] ∧ lines.map Link.ofFirstBar =
      ((RecordLines.cut width lines).2.map RecordLines.link).map .ok := by
  induction lines with
  | nil => exact ⟨rfl, rfl⟩
  | cons line lines ih =>
    rw [List.forall_mem_cons] at h
    obtain ⟨source, text, rfl, hsize, hsource⟩ := h.1.exists_source
    obtain ⟨hfront, hlinks⟩ := ih h.2
    rw [RecordLines.cut_cons_bar hsize, hfront]
    refine ⟨rfl, ?_⟩
    rw [List.map_cons, hlinks, Link.ofFirstBar_append_bar hsource, List.map_cons, List.map_cons,
      RecordLines.link, List.flatten_nil, List.append_nil]

/-- Where the first bar is always in place, a fixed width and a variable one give the same links. -/
theorem exists_links_of_firstBarAt {width : Nat} {lines : List Text}
    (h : ∀ line ∈ lines, FirstBarAt width line) :
    ∃ links : List Link, (Dialect.fixedWidth width).items lines = links.map .ok ∧
      Dialect.variableWidth.items lines = links.map .ok := by
  obtain ⟨hfront, hlinks⟩ := cut_of_firstBarAt h
  exact ⟨_, Dialect.items_of_cut hfront, hlinks⟩

/-- With one bar in each line, each line gives the same link by both rules. -/
theorem exists_links_of_count_eq_one {lines : List Text}
    (h : ∀ line ∈ lines, line.count '|' = 1) :
    ∃ links : List Link, Dialect.rfc.items lines = links.map .ok ∧
      Dialect.variableWidth.items lines = links.map .ok := by
  induction lines with
  | nil => exact ⟨[], rfl, rfl⟩
  | cons line lines ih =>
    rw [List.forall_mem_cons] at h
    obtain ⟨link, hbars, hbar⟩ := Link.exists_of_count_eq_one h.1
    obtain ⟨links, hitems, hitems'⟩ := ih h.2
    refine ⟨link :: links, ?_, ?_⟩
    · rw [Dialect.items, List.map_cons, hbars, List.map_cons]
      exact congrArg _ hitems
    · rw [Dialect.items, List.map_cons, hbar, List.map_cons]
      exact congrArg _ hitems'

/-! ## Whole dumps -/

/-- The scan of the header is the same in every dialect. -/
theorem call_fields_of_dialects (dialect dialect' : Dialect) (source : Source) :
    ((Reader.ofSource dialect source).call .fields).1 =
        ((Reader.ofSource dialect' source).call .fields).1 ∧
      ((Reader.ofSource dialect source).call .fields).2 =
        { ((Reader.ofSource dialect' source).call .fields).2 with dialect } := by
  simp only [Reader.call, Reader.readFields, Reader.ofSource]
  rcases Cursor.scanHeader { source } with ⟨scanner, ⟨_, cursor⟩ | ⟨cause, cursor⟩⟩
  · exact ⟨rfl, rfl⟩
  · exact ⟨rfl, rfl⟩

/-- The dialects agree on their common language. On every source the first call for the fields gives
the same reply, at the same line, in every dialect. Of a dump in chunks whose header is accepted,
sources of `width` bytes and of any length are the same if the first bar of each line behind the
header is at that offset, and so are fields between bars if each of these lines has one bar:
decoding gives the same links and line numbers and does not fail. -/
theorem dialects_agree :
    (∀ (source : Source) (dialect dialect' : Dialect),
      ((Reader.ofSource dialect source).transcript [.fields]).1 =
        ((Reader.ofSource dialect' source).transcript [.fields]).1 ∧
      ((StreamDecoder.ofSource dialect source).transcript [.fields]).1 =
        ((StreamDecoder.ofSource dialect' source).transcript [.fields]).1) ∧
    ∀ (source : Source) (cursor : Cursor), source.AllChunks →
      (Cursor.scanHeader { source }).2 = .ok () cursor →
      (∀ width, (∀ line ∈ linkTexts source.bytes, FirstBarAt width line) →
        decode (.fixedWidth width) source = decode .variableWidth source ∧
          (decode .variableWidth source).failure = none) ∧
      ((∀ line ∈ linkTexts source.bytes, line.count '|' = 1) →
        decode .rfc source = decode .variableWidth source ∧
          (decode .variableWidth source).failure = none) := by
  constructor
  · intro source dialect dialect'
    obtain ⟨hreply, hreader⟩ := call_fields_of_dialects dialect dialect' source
    have hentries : ((Reader.ofSource dialect source).transcript [.fields]).1 =
        ((Reader.ofSource dialect' source).transcript [.fields]).1 := by
      rw [Reader.transcript, Reader.transcript, transcript_cons, transcript_cons, hreply, hreader]
      rfl
    refine ⟨hentries, ?_⟩
    rw [← StreamDecoder.ofReader_ofSource, ← StreamDecoder.ofReader_ofSource,
      StreamDecoder.transcript_ofReader (Reader.fieldsFromScan_ofSource dialect source),
      StreamDecoder.transcript_ofReader (Reader.fieldsFromScan_ofSource dialect' source)]
    exact hentries
  · intro source cursor hchunks hscan
    obtain ⟨fields, hfields⟩ := Cursor.map_fieldOfLine_of_scanHeader_eq_ok hchunks hscan
    -- The links of a dialect that says the same of the lines are those of the other one.
    have hagree : ∀ dialect : Dialect,
        (∃ links : List Link, dialect.items (linkTexts source.bytes) = links.map .ok ∧
          Dialect.variableWidth.items (linkTexts source.bytes) = links.map .ok) →
        decode dialect source = decode .variableWidth source ∧
          (decode .variableWidth source).failure = none := by
      rintro dialect ⟨links, hitems, hitems'⟩
      rw [decode_of_items hchunks hfields hitems, decode_of_items hchunks hfields hitems']
      exact ⟨rfl, rfl⟩
    constructor
    · intro width hlines
      exact hagree _ (exists_links_of_firstBarAt hlines)
    · intro hlines
      exact hagree _ (exists_links_of_count_eq_one hlines)

/-- Behind a header, the lines `ab|x|y` and `cd|` for sources of two bytes; and without one, the
lines `a|x` and `bcd|y`, closed in different ways, for fields between bars. -/
theorem dialects_agree_on_two_lines :
    decode (.fixedWidth 2)
        [.chunk 0x23 [0x41, 0x3A, 0x31, 0x0A, 0x61, 0x62, 0x7C, 0x78, 0x7C],
          .chunk 0x79 [0x0A, 0x63, 0x64, 0x7C]] =
      ⟨[⟨['A'], ['1']⟩], [⟨['a', 'b'], ['x', '|', 'y'], []⟩, ⟨['c', 'd'], [], []⟩], none, 3⟩ ∧
    decode .rfc [.chunk 0x61 [0x7C, 0x78, 0x0D, 0x0A], .chunk 0x62 [0x63, 0x64, 0x7C, 0x79]] =
      ⟨[], [⟨['a'], ['x'], []⟩, ⟨['b', 'c', 'd'], ['y'], []⟩], none, 2⟩ := by
  have hchunks : Source.AllChunks
      [.chunk 0x23 [0x41, 0x3A, 0x31, 0x0A, 0x61, 0x62, 0x7C, 0x78, 0x7C],
        .chunk 0x79 [0x0A, 0x63, 0x64, 0x7C]] := by
    simp
  have hchunks' : Source.AllChunks
      [.chunk 0x61 [0x7C, 0x78, 0x0D, 0x0A], .chunk 0x62 [0x63, 0x64, 0x7C, 0x79]] := by
    simp
  have hfields : (metaLines (dumpTexts (Source.bytes
      [.chunk 0x23 [0x41, 0x3A, 0x31, 0x0A, 0x61, 0x62, 0x7C, 0x78, 0x7C],
        .chunk 0x79 [0x0A, 0x63, 0x64, 0x7C]]))).map fieldOfLine =
          [MetaField.mk ['A'] ['1']].map .ok := by
    decide
  have hfields' : (metaLines (dumpTexts (Source.bytes
      [.chunk 0x61 [0x7C, 0x78, 0x0D, 0x0A], .chunk 0x62 [0x63, 0x64, 0x7C, 0x79]]))).map
        fieldOfLine = List.map .ok [] := by
    decide
  obtain ⟨part, cursor, lines, hscan, -⟩ := Cursor.scanHeader_of_accepted hchunks hfields
  obtain ⟨part', cursor', lines', hscan', -⟩ := Cursor.scanHeader_of_accepted hchunks' hfields'
  have hfixed := (dialects_agree.2 _ cursor hchunks (congrArg Prod.snd hscan)).1 2 (by decide)
  have hbars := (dialects_agree.2 _ cursor' hchunks' (congrArg Prod.snd hscan')).2 (by decide)
  rw [hfixed.1, hbars.1]
  exact ⟨by decide +kernel, by decide +kernel⟩

end LinkDump
