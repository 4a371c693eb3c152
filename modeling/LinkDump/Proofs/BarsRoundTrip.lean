import LinkDump.Proofs.DumpMeaning
import LinkDump.Proofs.RenderedDumps

/-! # Rendering and decoding with fields between bars
Every link has a line of its own, and so has every meta field, with an empty line behind the fields.
Each line may be closed with either line break. Such a dump is known by its rows, of which only the
texts matter: `renderedTexts` are those of given fields and links, and they give these back. -/

namespace LinkDump

/-- The texts of the rows of a dump with these fields and links. -/
def renderedTexts (fields : List MetaField) (links : List Link) : List Text :=
  fields.map MetaField.render ++ (if fields = [] then [] else [[]]) ++ links.map Link.render

/-! ## The line of a link -/

/-- The links that a line with fields between bars gives back. -/
structure Link.RendersInBars (link : Link) : Prop where
  bar_not_mem : ∀ part ∈ [link.source, link.note, link.target], '|' ∉ part
  newline_not_mem : ∀ part ∈ [link.source, link.note, link.target], '\n' ∉ part
  getLast?_ne : link.target.getLast? ≠ some '\r'

instance (link : Link) : Decidable link.RendersInBars :=
  decidable_of_iff ((∀ part ∈ [link.source, link.note, link.target], '|' ∉ part) ∧
      (∀ part ∈ [link.source, link.note, link.target], '\n' ∉ part) ∧
      link.target.getLast? ≠ some '\r')
    ⟨fun h => ⟨h.1, h.2.1, h.2.2⟩, fun h => ⟨h.1, h.2, h.3⟩⟩

namespace Link

/-- Whatever the note is, a rendering ends with a bar and the target. -/
theorem exists_render_eq (link : Link) : ∃ front, link.render = front ++ '|' :: link.target := by
  obtain ⟨source, target, note⟩ := link
  cases note with
  | nil => exact ⟨source, rfl⟩
  | cons c note => exact ⟨source ++ '|' :: (c :: note), rfl⟩

/-- Every rendering has a bar. -/
theorem mem_render (link : Link) : '|' ∈ link.render := by
  obtain ⟨front, hrender⟩ := link.exists_render_eq
  simp [hrender]

/-- No rendering is empty. -/
theorem render_ne_nil (link : Link) : link.render ≠ [] := List.ne_nil_of_mem link.mem_render

/-- Without bars of their own, the fields of a link are what stands between the bars of its
rendering, in the same order. -/
theorem ofBars_render {link : Link}
    (h : ∀ part ∈ [link.source, link.note, link.target], '|' ∉ part) :
    ofBars link.render = .ok link := by
  obtain ⟨source, target, note⟩ := link
  simp only [List.forall_mem_cons] at h
  obtain ⟨hsource, hnote, htarget, -⟩ := h
  cases note with
  | nil =>
    -- An empty note is left out, so that there is one bar only.
    have hparts : ∀ part ∈ [source, target], '|' ∉ part := by simp [hsource, htarget]
    have hsplit := List.splitOn_intercalate '|' hparts (List.cons_ne_nil _ _)
    have hrender : ['|'].intercalate [source, target] = (Link.mk source target []).render := by
      simp [List.intercalate]
    rw [hrender] at hsplit
    rw [ofBars, hsplit]
  | cons c note =>
    have hparts : ∀ part ∈ [source, c :: note, target], '|' ∉ part := by
      simpa [hsource, htarget] using hnote
    have hsplit := List.splitOn_intercalate '|' hparts (List.cons_ne_nil _ _)
    have hrender : ['|'].intercalate [source, c :: note, target] =
        (Link.mk source target (c :: note)).render := by
      simp [List.intercalate]
    rw [hrender] at hsplit
    rw [ofBars, hsplit]

namespace RendersInBars

variable {link : Link}

/-- A link whose fields have no newline is rendered on one line. -/
theorem newline_not_mem_render (h : link.RendersInBars) : '\n' ∉ link.render := by
  have hparts := h.newline_not_mem
  obtain ⟨source, target, note⟩ := link
  simp only [List.forall_mem_cons] at hparts
  obtain ⟨hsource, hnote, htarget, -⟩ := hparts
  cases note with
  | nil => simp [hsource, htarget]
  | cons c note =>
    rw [List.mem_cons, not_or] at hnote
    simp [hsource, htarget, hnote]

/-- The last character is that of the target, or the bar before it. -/
theorem getLast?_render_ne (h : link.RendersInBars) : link.render.getLast? ≠ some '\r' := by
  have hlast := h.getLast?_ne
  obtain ⟨front, hrender⟩ := link.exists_render_eq
  rw [hrender, List.getLast?_append]
  cases htarget : link.target with
  | nil => simp
  | cons c target =>
    rw [htarget] at hlast
    rw [List.getLast?_cons_cons]
    simpa using hlast

/-- The line of a link gives it back, however it is closed. -/
theorem ofBars_line (h : link.RendersInBars) {row : Row} (hrow : row.text = link.render) :
    ofBars (dropLineBreak row.line) = .ok link := by
  have hlast : row.text.getLast? ≠ some '\r' := by
    rw [hrow]
    exact h.getLast?_render_ne
  rw [Row.dropLineBreak_line hlast, hrow]
  exact ofBars_render h.bar_not_mem

end RendersInBars

/-- The line of a link has a bar, and so is not blank. -/
theorem isBlankLine_line {link : Link} {row : Row} (hrow : row.text = link.render) :
    isBlankLine row.line = false := by
  have hmem : '|' ∈ dropLineBreak row.line := by
    apply mem_dropLineBreak _ (by decide) (by decide)
    rw [Row.line, hrow]
    exact List.mem_append_left _ link.mem_render
  rw [isBlankLine, isBlank, List.all_eq_false]
  exact ⟨'|', hmem, by decide⟩

end Link

/-! ## Whole dumps -/

section Rows

variable {fields : List MetaField} {links : List Link} {rows : List Row}

/-- The rows of a dump are those of its fields, the empty one, and those of its links. -/
theorem exists_rows_of_renderedTexts (hrows : rows.map Row.text = renderedTexts fields links) :
    ∃ front blanks back, rows = front ++ (blanks ++ back) ∧
      front.map Row.text = fields.map MetaField.render ∧
      blanks.map Row.text = (if fields = [] then [] else [[]]) ∧
      back.map Row.text = links.map Link.render := by
  obtain ⟨before, back, rfl, hbefore, hback⟩ := List.map_eq_append_iff.mp hrows
  obtain ⟨front, blanks, rfl, hfront, hblanks⟩ := List.map_eq_append_iff.mp hbefore
  exact ⟨front, blanks, back, List.append_assoc _ _ _, hfront, hblanks, hback⟩

/-- No row has a newline of its own. -/
theorem newline_not_mem_of_renderedTexts (hfields : ∀ field ∈ fields, field.Renders)
    (hlinks : ∀ link ∈ links, link.RendersInBars)
    (hrows : rows.map Row.text = renderedTexts fields links) : ∀ row ∈ rows, '\n' ∉ row.text := by
  intro row hrow
  have hmem : row.text ∈ renderedTexts fields links := by
    rw [← hrows]
    exact List.mem_map_of_mem hrow
  rw [renderedTexts, List.mem_append, List.mem_append, List.mem_map, List.mem_map] at hmem
  rcases hmem with (⟨field, hfield, hrender⟩ | hempty) | ⟨link, hlink, hrender⟩
  · rw [← hrender]
    exact (hfields field hfield).newline_not_mem_render
  · split at hempty
    · cases hempty
    · rw [List.mem_singleton.mp hempty]
      exact List.not_mem_nil
  · rw [← hrender]
    exact (hlinks link hlink).newline_not_mem_render

/-- A dump starts with a `#`, or with its first link. -/
theorem head?_flatMap_line_ne (hrows : rows.map Row.text = renderedTexts fields links)
    (hfirst : fields = [] → ∀ link ∈ links.head?, link.render.head? ≠ some '\uFEFF') :
    (rows.flatMap Row.line).head? ≠ some '\uFEFF' := by
  cases fields with
  | cons field fields =>
    obtain ⟨row, rows, rfl, htext, -⟩ := List.map_eq_cons_iff.mp hrows
    have hne : row.text ≠ [] := by simp [htext, MetaField.render]
    rw [Row.head?_flatMap_line hne, htext]
    simp [MetaField.render]
  | nil =>
    cases links with
    | nil =>
      obtain rfl := List.map_eq_nil_iff.mp hrows
      simp
    | cons link links =>
      obtain ⟨row, rows, rfl, htext, -⟩ := List.map_eq_cons_iff.mp hrows
      have hne : row.text ≠ [] := by
        rw [htext]
        exact link.render_ne_nil
      rw [Row.head?_flatMap_line hne, htext]
      exact hfirst rfl link rfl

/-- Rows of fields are meta lines, and give the fields back. -/
theorem fieldOfLine_rows (hfields : ∀ field ∈ fields, field.Renders)
    (hrows : rows.map Row.text = fields.map MetaField.render) :
    (rows.map Row.line).map fieldOfLine = fields.map .ok ∧
      ∀ line ∈ rows.map Row.line, isMetaLine line = true := by
  induction fields generalizing rows with
  | nil =>
    obtain rfl := List.map_eq_nil_iff.mp hrows
    exact ⟨rfl, List.forall_mem_nil _⟩
  | cons field fields ih =>
    obtain ⟨row, rows, rfl, htext, hrest⟩ := List.map_eq_cons_iff.mp hrows
    rw [List.forall_mem_cons] at hfields
    obtain ⟨hgiven, hmeta⟩ := ih hfields.2 hrest
    constructor
    · rw [List.map_cons, List.map_cons, List.map_cons, hgiven, hfields.1.fieldOfLine_line htext]
    · rw [List.map_cons, List.forall_mem_cons]
      exact ⟨isMetaLine_line htext, hmeta⟩

/-- Rows of links give the links back. -/
theorem ofBars_rows (hlinks : ∀ link ∈ links, link.RendersInBars)
    (hrows : rows.map Row.text = links.map Link.render) :
    (rows.map Row.line).map (fun raw => Link.ofBars (dropLineBreak raw)) = links.map .ok := by
  induction links generalizing rows with
  | nil =>
    obtain rfl := List.map_eq_nil_iff.mp hrows
    rfl
  | cons link links ih =>
    obtain ⟨row, rows, rfl, htext, hrest⟩ := List.map_eq_cons_iff.mp hrows
    rw [List.forall_mem_cons] at hlinks
    rw [List.map_cons, List.map_cons, List.map_cons, ih hlinks.2 hrest,
      hlinks.1.ofBars_line htext]

/-- The header of such rows is those of the fields and the empty one, and gives the fields back. -/
theorem header_of_rows {front blanks back : List Row} (hfields : ∀ field ∈ fields, field.Renders)
    (hfirst : fields = [] → ∀ link ∈ links.head?, link.render.head? ≠ some '#')
    (hfront : front.map Row.text = fields.map MetaField.render)
    (hblanks : blanks.map Row.text = if fields = [] then [] else [[]])
    (hback : back.map Row.text = links.map Link.render) :
    (metaLines ((front ++ (blanks ++ back)).map Row.line)).map fieldOfLine = fields.map .ok ∧
      ((front ++ (blanks ++ back)).map Row.line).drop
        (headerLength ((front ++ (blanks ++ back)).map Row.line)) = back.map Row.line := by
  obtain ⟨hgiven, hmeta⟩ := fieldOfLine_rows hfields hfront
  -- The first line behind the header, if there is one, is that of the first link.
  have hbody : ∀ line ∈ (back.map Row.line).head?,
      ∃ link ∈ links.head?, ∃ row : Row, row.text = link.render ∧ line = row.line := by
    intro line hline
    cases links with
    | nil =>
      obtain rfl := List.map_eq_nil_iff.mp hback
      cases hline
    | cons link links =>
      obtain ⟨row, rows, rfl, htext, -⟩ := List.map_eq_cons_iff.mp hback
      exact ⟨link, rfl, row, htext, (Option.some.inj hline).symm⟩
  have hblank : ∀ line ∈ (back.map Row.line).head?, isBlankLine line = false := by
    intro line hline
    obtain ⟨link, -, row, htext, rfl⟩ := hbody line hline
    exact Link.isBlankLine_line htext
  have hempty : ∀ line ∈ blanks.map Row.line, isBlankLine line = true := by
    intro line hline
    obtain ⟨row, hrow, rfl⟩ := List.mem_map.mp hline
    have hmem : row.text ∈ blanks.map Row.text := List.mem_map_of_mem hrow
    rw [hblanks] at hmem
    split at hmem
    · cases hmem
    · exact Row.isBlankLine_line (List.mem_singleton.mp hmem)
  -- There is an empty row exactly if there are fields.
  have hfieldless : blanks = [] ↔ fields = [] := by
    rw [← List.map_eq_nil_iff (f := Row.text), hblanks]
    split <;> simp [*]
  have hnone : front.map Row.line = [] → blanks.map Row.line = [] := by
    intro hnil
    rw [List.map_eq_nil_iff.mp hnil] at hfront
    rw [hfieldless.mpr (List.map_eq_nil_iff.mp hfront.symm), List.map_nil]
  have hlink : blanks.map Row.line = [] →
      ∀ line ∈ (back.map Row.line).head?, isMetaLine line = false := by
    intro hnil line hline
    have hnil' := hfieldless.mp (List.map_eq_nil_iff.mp hnil)
    obtain ⟨link, hmem, row, htext, rfl⟩ := hbody line hline
    have hne : row.text ≠ [] := by
      rw [htext]
      exact link.render_ne_nil
    rw [isMetaLine, Row.head?_line hne, htext]
    simpa using hfirst hnil' link hmem
  obtain ⟨hheader, hrest⟩ := header_of_runs hmeta hempty hnone hlink hblank
  rw [List.map_append, List.map_append]
  refine ⟨?_, hrest⟩
  rw [hheader, hgiven]

/-- A dump that is rendered from meta fields and from links without bars or newlines decodes to
exactly these, however each line is closed and however the bytes are cut into chunks, and every line
is counted. Without meta fields the first link must not look like one, nor like a mark. -/
theorem decode_of_rows (hfields : ∀ field ∈ fields, field.Renders)
    (hlinks : ∀ link ∈ links, link.RendersInBars)
    (hfirst : fields = [] → ∀ link ∈ links.head?,
      link.render.head? ≠ some '#' ∧ link.render.head? ≠ some '\uFEFF')
    (hrows : rows.map Row.text = renderedTexts fields links)
    {source : Source} (hchunks : source.AllChunks)
    (hbytes : source.bytes = Utf8.encode (rows.flatMap Row.line)) :
    decode .rfc source = ⟨fields, links, none, rows.length⟩ := by
  have hmark : (rows.flatMap Row.line).head? ≠ some '\uFEFF' :=
    head?_flatMap_line_ne hrows fun hnil link hlink => (hfirst hnil link hlink).2
  have hdump : dumpTexts source.bytes = rows.map Row.line := by
    rw [hbytes, dumpTexts_encode hmark]
    exact Row.textLines_flatMap_line (newline_not_mem_of_renderedTexts hfields hlinks hrows)
  obtain ⟨front, blanks, back, rfl, hfront, hblanks, hback⟩ := exists_rows_of_renderedTexts hrows
  obtain ⟨hheader, hrest⟩ := header_of_rows hfields
    (fun hnil link hlink => (hfirst hnil link hlink).1) hfront hblanks hback
  rw [← hdump] at hheader hrest
  have hlines : (linkTexts source.bytes).map (fun raw => Link.ofBars (dropLineBreak raw)) =
      links.map .ok := by
    rw [linkTexts, hrest]
    exact ofBars_rows hlinks hback
  rw [decode_of_accepted hchunks rfl fields links hheader hlines, hdump, List.length_map]

/-- Three links behind a field: the first one starts with `#` and its source ends with a carriage
return, the second one has a note and no target, and the third one has nothing at all. The lines are
closed in both ways. -/
theorem decode_of_three_links :
    decode .rfc (.ofBytes (Utf8.encode (List.flatMap Row.line
        [⟨['#', 'A', ':', ' ', '1'], .returnNewline⟩, ⟨[], .newline⟩,
          ⟨['#', 'a', '\r', '|', 'x'], .newline⟩, ⟨['é', '|', 'n', '|'], .returnNewline⟩,
          ⟨['|'], .newline⟩]))) =
      ⟨[⟨['A'], ['1']⟩],
        [⟨['#', 'a', '\r'], ['x'], []⟩, ⟨['é'], [], ['n']⟩, ⟨[], [], []⟩], none, 5⟩ := by
  have hfields : ∀ field ∈ [(⟨['A'], ['1']⟩ : MetaField)], field.Renders := by decide
  have hlinks : ∀ link ∈ [(⟨['#', 'a', '\r'], ['x'], []⟩ : Link), ⟨['é'], [], ['n']⟩, ⟨[], [], []⟩],
      link.RendersInBars := by
    decide
  exact decode_of_rows hfields hlinks (fun hnil => nomatch hnil) (by decide)
    (by simp [Source.ofBytes]) (Source.bytes_ofBytes _)

end Rows

end LinkDump
