import LinkDump.Proofs.Finished
import LinkDump.Proofs.HeaderLines
import Mathlib.Data.List.TakeWhile

/-! # Scanning a header
What the first call on a reader does with a dump that arrives in chunks. -/

namespace LinkDump

/-- A sequence of results either has no error or has a first one. -/
theorem exists_map_ok_or_error {ε α : Type} (items : List (Except ε α)) :
    (∃ values : List α, items = values.map .ok) ∨
      ∃ (values : List α) (e : ε) (rest : List (Except ε α)),
        items = values.map .ok ++ .error e :: rest := by
  induction items with
  | nil => exact .inl ⟨[], rfl⟩
  | cons item items ih =>
    cases item with
    | error e => exact .inr ⟨[], e, items, rfl⟩
    | ok value =>
      rcases ih with ⟨values, hvalues⟩ | ⟨values, e, rest, hvalues⟩
      · exact .inl ⟨value :: values, by rw [hvalues, List.map_cons]⟩
      · exact .inr ⟨value :: values, e, rest, by rw [hvalues, List.map_cons, List.cons_append]⟩

/-! ## The run of meta lines -/

/-- The meta lines are the first lines, as many as there are of them. -/
theorem metaLines_eq_take (lines : List Text) :
    metaLines lines = lines.take (metaLines lines).length :=
  List.prefix_iff_eq_take.mp (List.takeWhile_prefix isMetaLine)

/-- Each of the meta lines in front is a meta line. -/
theorem isMetaLine_of_mem_metaLines {lines : List Text} {line : Text} (h : line ∈ metaLines lines) :
    isMetaLine line = true := List.mem_takeWhile_imp h

/-- The run of meta lines is as long as it can be. -/
theorem metaLines_drop (lines : List Text) :
    metaLines (lines.drop (metaLines lines).length) = [] := by
  induction lines with
  | nil => rfl
  | cons line lines ih =>
    unfold metaLines
    rw [List.takeWhile_cons]
    by_cases hline : isMetaLine line = true
    · rw [if_pos hline, List.length_cons, List.drop_succ_cons]
      exact ih
    · rw [if_neg hline, List.length_nil, List.drop_zero, List.takeWhile_cons_of_neg hline]

/-- There are meta lines exactly if the first line starts with `#`. -/
theorem metaLines_ne_nil_iff {lines : List Text} :
    metaLines lines ≠ [] ↔ lines.head?.bind List.head? = some '#' := by
  cases lines with
  | nil => simp [metaLines]
  | cons line lines =>
    rw [metaLines, List.takeWhile_cons, List.head?_cons, Option.bind_some]
    by_cases hline : isMetaLine line = true
    · rw [if_pos hline]
      simpa [isMetaLine] using hline
    · rw [if_neg hline]
      simpa [isMetaLine] using hline

/-- Without a meta line in front there is no header. -/
theorem headerLength_of_nil {lines : List Text} (h : metaLines lines = []) :
    headerLength lines = 0 := by
  rw [headerLength, h]
  rfl

/-- A header is its meta lines and the blank lines behind them. -/
theorem headerLength_of_ne_nil {lines : List Text} (h : metaLines lines ≠ []) :
    headerLength lines = (metaLines lines).length +
      ((lines.drop (metaLines lines).length).takeWhile isBlankLine).length := by
  rw [headerLength, if_neg (by simpa using h)]

/-- A header is part of the lines. -/
theorem headerLength_le_length (lines : List Text) : headerLength lines ≤ lines.length := by
  by_cases h : metaLines lines = []
  · rw [headerLength_of_nil h]
    exact Nat.zero_le _
  · have hmeta : (metaLines lines).length ≤ lines.length :=
      (List.takeWhile_prefix isMetaLine).length_le
    have hblank := (List.takeWhile_prefix isBlankLine
      (l := lines.drop (metaLines lines).length)).length_le
    rw [List.length_drop] at hblank
    rw [headerLength_of_ne_nil h]
    omega

/-- What follows a header is what follows the blank lines after its meta lines. -/
theorem drop_headerLength_of_ne_nil {lines : List Text} (h : metaLines lines ≠ []) :
    lines.drop (headerLength lines) =
      (lines.drop (metaLines lines).length).dropWhile isBlankLine := by
  rw [headerLength_of_ne_nil h, ← List.drop_drop]
  generalize lines.drop (metaLines lines).length = rest
  conv => lhs; arg 2; rw [← List.takeWhile_append_dropWhile (p := isBlankLine) (l := rest)]
  exact List.drop_left

/-! ## Whole headers -/

/-- The lines of a dump, as texts, each with its line break. -/
def dumpTexts (bytes : Bytes) : List Text := (dumpLines bytes).map Utf8.decode

/-- The lines behind the header of a dump, as texts, each with its line break. -/
def linkTexts (bytes : Bytes) : List Text := (dumpTexts bytes).drop (headerLength (dumpTexts bytes))

/-- The header and the lines behind it are all lines of a dump. -/
theorem headerLength_add_length_linkTexts (bytes : Bytes) :
    headerLength (dumpTexts bytes) + (linkTexts bytes).length = (dumpTexts bytes).length := by
  rw [linkTexts, List.length_drop]
  exact Nat.add_sub_cancel' (headerLength_le_length _)

namespace Cursor

/-- A scan over chunks either finds no `#` in front and takes nothing, or feeds lines from the first
one on. -/
theorem scanHeader_eq {source : Source} (hchunks : source.AllChunks) :
    ∃ cursor : Cursor, cursor.StandsAt 0 (dumpLines source.bytes) ∧
      scanHeader { source } =
        if metaLines (dumpTexts source.bytes) = [] then ({}, .ok () cursor)
        else cursor.scanLines {} := by
  obtain ⟨found, cursor, hmark, hstands⟩ := StandsAt.consumeMark hchunks
  obtain ⟨first, hpeek, hfirst⟩ := hstands.peekByte (a := '#') (by decide)
  refine ⟨cursor, hstands, ?_⟩
  rw [← metaLines_ne_nil_iff] at hfirst
  change first = some 0x23 ↔ _ at hfirst
  rw [scanHeader_eq_scanUnmarked, hmark]
  simp only [scanUnmarked, hpeek]
  by_cases hmeta : metaLines (dumpTexts source.bytes) = []
  · have hother : first ≠ some 0x23 := by
      intro heq
      exact hfirst.mp heq hmeta
    rw [if_pos hmeta, if_neg hother]
  · rw [if_neg hmeta, if_pos (hfirst.mpr hmeta)]

/-- Fed from its first line on, a header whose meta lines are all accepted is taken whole: its meta
lines, and then the blank lines. -/
theorem StandsAt.scanLines_accepted {cursor : Cursor} {count : Nat} {lines : List Bytes}
    (h : cursor.StandsAt count lines) (hmeta : metaLines (lines.map Utf8.decode) ≠ [])
    {fields : List MetaField}
    (hfields : (metaLines (lines.map Utf8.decode)).map fieldOfLine = fields.map .ok) :
    ∃ part cursor', cursor.scanLines {} = (⟨fields, part⟩, .ok () cursor') ∧
      cursor'.StandsAt (count + headerLength (lines.map Utf8.decode))
        (lines.drop (headerLength (lines.map Utf8.decode))) := by
  have hfront : (lines.take (metaLines (lines.map Utf8.decode)).length).map Utf8.decode =
      metaLines (lines.map Utf8.decode) := by
    rw [List.map_take, ← metaLines_eq_take]
  have hback : HeaderPart.fields = .fields → metaLines
      ((lines.drop (metaLines (lines.map Utf8.decode)).length).map Utf8.decode) = [] := by
    intro _
    rw [List.map_drop]
    exact metaLines_drop _
  rw [← hfront] at hfields
  have hrun : ∀ line ∈ (lines.take (metaLines (lines.map Utf8.decode)).length).map Utf8.decode,
      isMetaLine line = true := by
    intro line hline
    rw [hfront] at hline
    exact isMetaLine_of_mem_metaLines hline
  rw [← List.take_append_drop (metaLines (lines.map Utf8.decode)).length lines] at h
  obtain ⟨cursor₁, hrun₁, hstands₁⟩ := h.scanLines_fields hrun hfields []
  obtain ⟨part, cursor₂, hrun₂, hstands₂⟩ := hstands₁.scanLines_blanks hback ([] ++ fields)
  refine ⟨part, cursor₂, hrun₁.trans hrun₂, ?_⟩
  rw [List.drop_drop, List.map_drop, ← List.length_map Utf8.decode, hfront, Nat.add_assoc]
    at hstands₂
  rwa [headerLength_of_ne_nil hmeta]

/-- A header whose meta lines are all accepted is scanned to its end and no further. -/
theorem scanHeader_to_end {source : Source} (hchunks : source.AllChunks)
    {fields : List MetaField}
    (hfields : (metaLines (dumpTexts source.bytes)).map fieldOfLine = fields.map .ok) :
    ∃ part cursor, scanHeader { source } = (⟨fields, part⟩, .ok () cursor) ∧
      cursor.StandsAt (headerLength (dumpTexts source.bytes))
        ((dumpLines source.bytes).drop (headerLength (dumpTexts source.bytes))) := by
  obtain ⟨cursor, hstands, hscan⟩ := scanHeader_eq hchunks
  rw [hscan]
  by_cases hmeta : metaLines (dumpTexts source.bytes) = []
  · rw [hmeta] at hfields
    obtain rfl : fields = [] := by simpa using hfields.symm
    rw [if_pos hmeta, headerLength_of_nil hmeta]
    exact ⟨_, cursor, rfl, hstands⟩
  · obtain ⟨part, cursor', hrun, hstands'⟩ := hstands.scanLines_accepted hmeta hfields
    rw [if_neg hmeta]
    rw [Nat.zero_add] at hstands'
    exact ⟨part, cursor', hrun, hstands'⟩

/-- The lines that are still to come behind a header are those of the links. -/
theorem scanHeader_of_accepted {source : Source} (hchunks : source.AllChunks)
    {fields : List MetaField}
    (hfields : (metaLines (dumpTexts source.bytes)).map fieldOfLine = fields.map .ok) :
    ∃ part cursor lines, scanHeader { source } = (⟨fields, part⟩, .ok () cursor) ∧
      cursor.StandsAt (headerLength (dumpTexts source.bytes)) lines ∧
      lines.map Utf8.decode = linkTexts source.bytes := by
  obtain ⟨part, cursor, hscan, hstands⟩ := scanHeader_to_end hchunks hfields
  refine ⟨part, cursor, _, hscan, hstands, ?_⟩
  rw [List.map_drop]
  rfl

/-- The first meta line that is refused ends the scan, with the fields of the lines before it. -/
theorem scanHeader_of_refused {source : Source} (hchunks : source.AllChunks)
    {before rest : List Text} {line : Text}
    (hlines : metaLines (dumpTexts source.bytes) = before ++ line :: rest)
    {fields : List MetaField} (hfields : before.map fieldOfLine = fields.map .ok) {e : LineError}
    (hrefused : fieldOfLine line = .error e) :
    ∃ cursor, scanHeader { source } = (⟨fields, .fields⟩, .error e cursor) ∧
      cursor.line = before.length + 1 := by
  have hmeta : ∀ line' ∈ before ++ line :: rest, isMetaLine line' = true := by
    intro line' hline
    rw [← hlines] at hline
    exact isMetaLine_of_mem_metaLines hline
  rw [List.forall_mem_append, List.forall_mem_cons] at hmeta
  obtain ⟨cursor, hstands, hscan⟩ := scanHeader_eq hchunks
  -- The lines of the dump are those before the refused one, that one, and others.
  obtain ⟨tail, htail⟩ := List.takeWhile_prefix isMetaLine (l := dumpTexts source.bytes)
  rw [← metaLines, hlines, List.append_assoc, List.cons_append] at htail
  obtain ⟨front, back, hsplit, rfl, hback⟩ := List.map_eq_append_iff.mp htail.symm
  obtain ⟨line', lines', rfl, rfl, -⟩ := List.map_eq_cons_iff.mp hback
  rw [hsplit] at hstands
  obtain ⟨cursor₁, hrun₁, hstands₁⟩ := hstands.scanLines_fields hmeta.1 hfields []
  obtain ⟨cursor₂, hrun₂, hline⟩ := hstands₁.scanLines_refused hmeta.2.1 hrefused ([] ++ fields)
  refine ⟨cursor₂, ?_, ?_⟩
  · rw [hscan, if_neg (by rw [hlines]; simp)]
    exact hrun₁.trans hrun₂
  · rw [hline, Nat.zero_add, List.length_map]

/-- A scan that succeeds has met no meta line that is refused. -/
theorem map_fieldOfLine_of_scanHeader_eq_ok {source : Source} (hchunks : source.AllChunks)
    {cursor : Cursor} (h : (scanHeader { source }).2 = .ok () cursor) :
    ∃ fields : List MetaField,
      (metaLines (dumpTexts source.bytes)).map fieldOfLine = fields.map .ok := by
  rcases exists_map_ok_or_error ((metaLines (dumpTexts source.bytes)).map fieldOfLine) with
    ⟨fields, hfields⟩ | ⟨fields, e, rest, hfields⟩
  · exact ⟨fields, hfields⟩
  · obtain ⟨before, back, hlines, hbefore, hback⟩ := List.map_eq_append_iff.mp hfields
    obtain ⟨line, rest', rfl, hrefused, -⟩ := List.map_eq_cons_iff.mp hback
    obtain ⟨cursor', hscan, -⟩ := scanHeader_of_refused hchunks hlines hbefore hrefused
    rw [hscan] at h
    cases h

/-- A scan that succeeds leaves the cursor behind the lines of the header. -/
theorem standsAt_of_scanHeader_eq_ok {source : Source} (hchunks : source.AllChunks)
    {cursor : Cursor} (h : (scanHeader { source }).2 = .ok () cursor) :
    cursor.StandsAt (headerLength (dumpTexts source.bytes))
      ((dumpLines source.bytes).drop (headerLength (dumpTexts source.bytes))) := by
  obtain ⟨fields, hfields⟩ := map_fieldOfLine_of_scanHeader_eq_ok hchunks h
  obtain ⟨part, cursor', hscan, hstands⟩ := scanHeader_to_end hchunks hfields
  rw [hscan] at h
  cases h
  exact hstands

end Cursor

/-! ## The first call on a reader -/

namespace Reader

/-- The fields of a header whose meta lines are all accepted are read, and links come next. -/
theorem readFields_of_accepted (dialect : Dialect) {source : Source} (hchunks : source.AllChunks)
    (fields : List MetaField)
    (hfields : (metaLines (dumpTexts source.bytes)).map fieldOfLine = fields.map .ok) :
    ∃ cursor lines,
      (ofSource dialect source).readFields = .ok fields ⟨cursor, dialect, fields, .links⟩ ∧
      cursor.StandsAt (headerLength (dumpTexts source.bytes)) lines ∧
      lines.map Utf8.decode = linkTexts source.bytes := by
  obtain ⟨part, cursor, lines, hscan, hstands⟩ := Cursor.scanHeader_of_accepted hchunks hfields
  refine ⟨cursor, lines, ?_, hstands⟩
  simp only [readFields, ofSource, hscan]

/-- A header fails at its first meta line that is refused, and the fields before it are kept. -/
theorem readFields_of_refused (dialect : Dialect) {source : Source} (hchunks : source.AllChunks)
    {before rest : List Text} {line : Text}
    (hlines : metaLines (dumpTexts source.bytes) = before ++ line :: rest)
    {fields : List MetaField} (hfields : before.map fieldOfLine = fields.map .ok) {e : LineError}
    (hrefused : fieldOfLine line = .error e) :
    ∃ cursor, (ofSource dialect source).readFields =
        .error ⟨before.length + 1, e⟩ ⟨cursor, dialect, fields, .done⟩ ∧
      cursor.line = before.length + 1 := by
  obtain ⟨cursor, hscan, hline⟩ := Cursor.scanHeader_of_refused hchunks hlines hfields hrefused
  refine ⟨cursor, ?_, hline⟩
  simp only [readFields, ofSource, hscan, fail, Reader.line, hline]

/-- If the scan succeeds, every meta line is accepted, and the reader stands behind the header. -/
theorem standsAt_of_readFields_eq_ok {dialect : Dialect} {source : Source}
    (hchunks : source.AllChunks) {fields : List MetaField} {reader : Reader}
    (h : (ofSource dialect source).readFields = .ok fields reader) :
    ∃ cursor lines, reader = ⟨cursor, dialect, fields, .links⟩ ∧
      cursor.StandsAt (headerLength (dumpTexts source.bytes)) lines ∧
      lines.map Utf8.decode = linkTexts source.bytes := by
  rcases exists_map_ok_or_error
      ((metaLines (dumpTexts source.bytes)).map fieldOfLine) with
    ⟨values, hvalues⟩ | ⟨values, e, rest, hvalues⟩
  · obtain ⟨cursor, lines, hread, hstands⟩ := readFields_of_accepted dialect hchunks values hvalues
    rw [hread] at h
    cases h
    exact ⟨cursor, lines, rfl, hstands⟩
  · obtain ⟨before, back, hlines, hbefore, hback⟩ := List.map_eq_append_iff.mp hvalues
    obtain ⟨line, rest', rfl, hline, -⟩ := List.map_eq_cons_iff.mp hback
    obtain ⟨cursor, hread, -⟩ := readFields_of_refused dialect hchunks hlines hbefore hline
    rw [hread] at h
    cases h

/-- The header is over, and links are read from the first of these lines on. -/
structure LinksFrom (dialect : Dialect) (lines : List Text) (reader : Reader) : Prop where
  phase_eq : reader.phase = .links
  dialect_eq : reader.dialect = dialect
  yields : reader.cursor.Yields lines

/-- The meaning of a header, for a dump that arrives in chunks of any sizes. Without a `#` in front
there are no fields, and links start with the first line. If every line of the run of `#` lines is
accepted, they are the fields, in order, and links start behind the blank lines that follow,
whatever line that is. If one is refused, the first call fails there, of whatever kind it is; from
then on the fields before it are known and no link is ever given. -/
theorem header_of_chunks {source : Source} (hchunks : source.AllChunks) (dialect : Dialect) :
    ((dumpTexts source.bytes).head?.bind List.head? ≠ some '#' →
      ∃ reader, (ofSource dialect source).readFields = .ok [] reader ∧
        reader.LinksFrom dialect (dumpTexts source.bytes) ∧
        (ofSource dialect source).readLink = reader.readLink) ∧
    (∀ fields, (dumpTexts source.bytes).head?.bind List.head? = some '#' →
      (metaLines (dumpTexts source.bytes)).map fieldOfLine = fields.map .ok →
      ∃ reader, (ofSource dialect source).readFields = .ok fields reader ∧
        reader.LinksFrom dialect (((dumpTexts source.bytes).drop
          (metaLines (dumpTexts source.bytes)).length).dropWhile isBlankLine) ∧
        (ofSource dialect source).readLink = reader.readLink) ∧
    (∀ before line rest fields e, metaLines (dumpTexts source.bytes) = before ++ line :: rest →
      before.map fieldOfLine = fields.map .ok → fieldOfLine line = .error e →
      ∀ call calls, ((ofSource dialect source).transcript (call :: calls)).1 =
        ⟨.failed ⟨before.length + 1, e⟩, before.length + 1⟩ ::
          calls.map fun c => ⟨.afterEnd fields c, before.length + 1⟩) := by
  refine ⟨?_, ?_, ?_⟩
  · intro hhead
    have hmeta : metaLines (dumpTexts source.bytes) = [] := by
      apply Classical.byContradiction
      intro hne
      exact hhead (metaLines_ne_nil_iff.mp hne)
    obtain ⟨cursor, lines, hread, hstands, hlines⟩ :=
      readFields_of_accepted dialect hchunks [] (by rw [hmeta]; rfl)
    have hyields := hstands.yields
    rw [hlines, linkTexts, headerLength_of_nil hmeta, List.drop_zero] at hyields
    exact ⟨_, hread, ⟨rfl, rfl, hyields⟩, readLink_of_readFields_eq_ok hread rfl⟩
  · intro fields hhead hfields
    obtain ⟨cursor, lines, hread, hstands, hlines⟩ :=
      readFields_of_accepted dialect hchunks fields hfields
    have hyields := hstands.yields
    rw [hlines, linkTexts,
      drop_headerLength_of_ne_nil (metaLines_ne_nil_iff.mpr hhead)] at hyields
    exact ⟨_, hread, ⟨rfl, rfl, hyields⟩, readLink_of_readFields_eq_ok hread rfl⟩
  · intro before line rest fields e hlines hfields hrefused call calls
    obtain ⟨cursor, hread, hline⟩ :=
      readFields_of_refused dialect hchunks hlines hfields hrefused
    rw [transcript, transcript_cons, call_of_readFields_eq_error hread, ← transcript,
      transcript_of_done rfl]
    simp only [Reader.line, hline]

/-- Behind a mark in two pieces and the header `#A: 1` with its blank line, links start with the
line `#x`. -/
theorem links_from_hash_line :
    ∃ reader, (ofSource (.fixedWidth 2) [.chunk 0xEF [0xBB],
        .chunk 0xBF [0x23, 0x41, 0x3A, 0x31, 0x0A, 0x20, 0x0A, 0x23, 0x78]]).readFields =
          .ok [⟨['A'], ['1']⟩] reader ∧
      reader.LinksFrom (.fixedWidth 2) [['#', 'x']] := by
  have hchunks : Source.AllChunks
      [.chunk 0xEF [0xBB], .chunk 0xBF [0x23, 0x41, 0x3A, 0x31, 0x0A, 0x20, 0x0A, 0x23, 0x78]] := by
    simp
  obtain ⟨reader, hread, hlinks, -⟩ :=
    (header_of_chunks hchunks (.fixedWidth 2)).2.1 [⟨['A'], ['1']⟩] (by decide) (by decide)
  exact ⟨reader, hread, hlinks⟩

end Reader

end LinkDump
