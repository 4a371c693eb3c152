import LinkDump.Proofs.DumpMeaning
import LinkDump.Proofs.RenderedDumps

/-! # Rendering and decoding with sources of a fixed width
A target may hold any text, and be cut into lines by its newlines. The record of such a link has all
of these lines, `Link.recordLines`; it is found again as long as none of them but the first looks
like the start of a record. The newline that closes the record is the only one that is dropped. -/

namespace LinkDump

/-! ## The record of a link -/

/-- The links that their lines give back where sources have `width` bytes. -/
structure Link.RendersAt (width : Nat) (link : Link) : Prop where
  note_eq : link.note = []
  size_eq : Utf8.size link.source = width
  newline_not_mem : '\n' ∉ link.source
  getLast?_ne : link.target.getLast? ≠ some '\r'
  not_barAt : ∀ line ∈ (link.target.splitOn '\n').tail, ¬BarAt width line

instance (width : Nat) (link : Link) : Decidable (link.RendersAt width) :=
  decidable_of_iff (link.note = [] ∧ Utf8.size link.source = width ∧ '\n' ∉ link.source ∧
      link.target.getLast? ≠ some '\r' ∧
      ∀ line ∈ (link.target.splitOn '\n').tail, ¬BarAt width line)
    ⟨fun h => ⟨h.1, h.2.1, h.2.2.1, h.2.2.2.1, h.2.2.2.2⟩,
      fun h => ⟨h.1, h.2, h.3, h.4, h.5⟩⟩

/-- The lines of a link whose target is cut at its newlines. -/
def Link.recordLines (link : Link) : RecordLines :=
  { source := link.source
    text := (link.target.splitOn '\n').headD [] ++ ['\n']
    more := (link.target.splitOn '\n').tail.map (· ++ ['\n']) }

namespace Link.RendersAt

variable {width : Nat} {link : Link}

/-- The lines of a link that renders at a width are a record of that width. -/
theorem fits (h : link.RendersAt width) : link.recordLines.Fits width := by
  refine ⟨h.size_eq, ?_⟩
  intro line hline
  obtain ⟨piece, hpiece, rfl⟩ := List.mem_map.mp hline
  exact mt (barAt_append (by decide) width piece).mp (h.not_barAt piece hpiece)

/-- The lines of the rendering are those of the record. -/
theorem splitOn_render (h : link.RendersAt width) :
    (link.render.splitOn '\n').map (· ++ ['\n']) = link.recordLines.lines := by
  obtain ⟨source, target, note⟩ := link
  obtain rfl : note = [] := h.note_eq
  obtain ⟨first, more, hsplit⟩ := exists_splitOn_eq_cons target
  have hmem : '\n' ∉ source ++ ['|'] := by simpa using h.newline_not_mem
  have hrender : (Link.mk source target []).render = (source ++ ['|']) ++ target := by
    rw [Link.render_of_note_nil, List.append_assoc, List.singleton_append]
  rw [hrender, splitOn_append_of_not_mem hmem]
  simp [recordLines, RecordLines.lines, RecordLines.first, hsplit]

/-- The record says the link. -/
theorem link_recordLines (h : link.RendersAt width) : link.recordLines.link = link := by
  obtain ⟨source, target, note⟩ := link
  obtain rfl : note = [] := h.note_eq
  obtain ⟨first, more, hsplit⟩ := exists_splitOn_eq_cons target
  have hflatten := flatten_splitOn target
  rw [hsplit, List.map_cons, List.flatten_cons] at hflatten
  simp only [recordLines, RecordLines.link, hsplit, List.headD_cons, List.tail_cons, hflatten,
    dropLineBreak_append_newline h.getLast?_ne]

/-- A source of a positive width is not empty. -/
theorem source_ne_nil (h : link.RendersAt width) (hwidth : 0 < width) : link.source ≠ [] := by
  intro hnil
  have hsize := h.size_eq
  rw [hnil, Utf8.size_nil] at hsize
  omega

/-- A source that is not empty starts the rendering. -/
theorem head?_render (h : link.RendersAt width) (hwidth : 0 < width) :
    link.render.head? = link.source.head? := by
  have hne := h.source_ne_nil hwidth
  obtain ⟨source, target, note⟩ := link
  obtain rfl : note = [] := h.note_eq
  cases source with
  | nil => exact absurd rfl hne
  | cons c source => rfl

/-- A source that is not empty starts the first line. -/
theorem head?_first (h : link.RendersAt width) (hwidth : 0 < width) :
    link.recordLines.first.head? = link.source.head? := by
  have hne := h.source_ne_nil hwidth
  rw [RecordLines.first, recordLines]
  cases hsource : link.source with
  | nil => exact absurd hsource hne
  | cons c source => rfl

end Link.RendersAt

/-- The first line of a record has a bar, and so is not blank. -/
theorem RecordLines.isBlankLine_first (record : RecordLines) :
    isBlankLine record.first = false := by
  have hmem : '|' ∈ dropLineBreak record.first := by
    apply mem_dropLineBreak _ (by decide) (by decide)
    simp [first]
  rw [isBlankLine, isBlank, List.all_eq_false]
  exact ⟨'|', hmem, by decide⟩

/-! ## Whole dumps -/

/-- The lines of rendered links are those of their records. -/
theorem flatMap_splitOn_render {width : Nat} {links : List Link}
    (hlinks : ∀ link ∈ links, link.RendersAt width) :
    (links.flatMap fun link => (link.render.splitOn '\n').map (· ++ ['\n'])) =
      (links.map Link.recordLines).flatMap RecordLines.lines := by
  induction links with
  | nil => rfl
  | cons link links ih =>
    rw [List.forall_mem_cons] at hlinks
    rw [List.flatMap_cons, List.map_cons, List.flatMap_cons, ih hlinks.2, hlinks.1.splitOn_render]

/-- A rendered dump starts with a `#`, or with the source of its first link. -/
theorem head?_dumpText_ne {width : Nat} (hwidth : 0 < width) {fields : List MetaField}
    {links : List Link} (hlinks : ∀ link ∈ links, link.RendersAt width)
    (hfirst : fields = [] → ∀ link ∈ links.head?, link.source.head? ≠ some '\uFEFF') :
    (dumpText fields links).head? ≠ some '\uFEFF' := by
  cases fields with
  | cons field fields => simp [dumpText, MetaField.render]
  | nil =>
    cases links with
    | nil => simp [dumpText]
    | cons link links =>
      have hhead := (hlinks link List.mem_cons_self).head?_render hwidth
      have hne := hfirst rfl link rfl
      rw [← hhead] at hne
      rw [dumpText]
      simp only [List.map_nil, if_true, List.nil_append, List.map_cons, unlines_cons]
      cases hrender : link.render with
      | nil => simp
      | cons c text =>
        rw [hrender] at hne
        exact hne

/-- A dump that is rendered from meta fields and from links with sources of a fixed width decodes to
exactly these, however its bytes are cut into chunks. The targets may be any texts of any number of
lines, as long as no line but the first has a bar where a source would end. -/
theorem decode_dumpText_of_fixedWidth {width : Nat} (hwidth : 0 < width) {fields : List MetaField}
    (hfields : ∀ field ∈ fields, field.Renders) {links : List Link}
    (hlinks : ∀ link ∈ links, link.RendersAt width)
    (hfirst : fields = [] → ∀ link ∈ links.head?,
      link.source.head? ≠ some '#' ∧ link.source.head? ≠ some '\uFEFF')
    {source : Source} (hchunks : source.AllChunks)
    (hbytes : source.bytes = Utf8.encode (dumpText fields links)) :
    decode (.fixedWidth width) source =
      ⟨fields, links, none, (textLines (dumpText fields links)).length⟩ := by
  have hdump : dumpTexts source.bytes = textLines (dumpText fields links) := by
    rw [hbytes]
    exact dumpTexts_encode (head?_dumpText_ne hwidth hlinks fun hnil link hlink =>
      (hfirst hnil link hlink).2)
  have hlines : textLines (dumpText fields links) =
      headerLines fields ++ (links.map Link.recordLines).flatMap RecordLines.lines := by
    rw [textLines_dumpText hfields, flatMap_splitOn_render hlinks]
  -- The first line behind the header has a bar, and is no meta line.
  have hbody : ∀ line ∈ ((links.map Link.recordLines).flatMap RecordLines.lines).head?,
      ∃ link ∈ links.head?, line = link.recordLines.first := by
    intro line hline
    cases links with
    | nil => cases hline
    | cons link links => exact ⟨link, rfl, (Option.some.inj hline).symm⟩
  have hmeta : fields = [] →
      ∀ line ∈ ((links.map Link.recordLines).flatMap RecordLines.lines).head?,
        isMetaLine line = false := by
    intro hnil line hline
    obtain ⟨link, hlink, rfl⟩ := hbody line hline
    have hhead := (hlinks link (List.mem_of_mem_head? hlink)).head?_first hwidth
    simpa [isMetaLine, hhead] using (hfirst hnil link hlink).1
  have hblank : ∀ line ∈ ((links.map Link.recordLines).flatMap RecordLines.lines).head?,
      isBlankLine line = false := by
    intro line hline
    obtain ⟨link, -, rfl⟩ := hbody line hline
    exact link.recordLines.isBlankLine_first
  obtain ⟨hheader, hlinkTexts⟩ := header_of_headerLines hfields _ hmeta hblank
  rw [← hlines, ← hdump] at hheader hlinkTexts
  -- So the lines behind the header are the records of the links, and these say the links.
  have hfits : ∀ record ∈ links.map Link.recordLines, record.Fits width := by
    intro record hrecord
    obtain ⟨link, hlink, rfl⟩ := List.mem_map.mp hrecord
    exact (hlinks link hlink).fits
  have hback : links.map (RecordLines.link ∘ Link.recordLines) = links.map id :=
    List.map_congr_left fun link hlink => (hlinks link hlink).link_recordLines
  rw [decode_of_fits hchunks fields _ hheader hfits hlinkTexts, List.map_map, hback, List.map_id,
    hdump]

/-- Two links behind a field: the first has a source of two bytes that is one character, and three
lines, the second of them empty; the source of the second is `|a`, and its target ends with a line
break. -/
theorem decode_dumpText_of_two_links :
    decode (.fixedWidth 2)
        (.ofBytes (Utf8.encode (dumpText [⟨['A'], ['1']⟩]
          [⟨['é'], ['x', '|', '\n', '\n', 'y', '|'], []⟩, ⟨['|', 'a'], ['z', '\r', '\n'], []⟩]))) =
      ⟨[⟨['A'], ['1']⟩],
        [⟨['é'], ['x', '|', '\n', '\n', 'y', '|'], []⟩, ⟨['|', 'a'], ['z', '\r', '\n'], []⟩],
        none, 7⟩ := by
  have hfields : ∀ field ∈ [(⟨['A'], ['1']⟩ : MetaField)], field.Renders := by decide
  have hlinks : ∀ link ∈ [(⟨['é'], ['x', '|', '\n', '\n', 'y', '|'], []⟩ : Link),
      ⟨['|', 'a'], ['z', '\r', '\n'], []⟩], link.RendersAt 2 := by
    decide
  exact decode_dumpText_of_fixedWidth (by decide) hfields hlinks (fun hnil => nomatch hnil)
    (by simp [Source.ofBytes]) (Source.bytes_ofBytes _)

end LinkDump
