import LinkDump.Proofs.BarsRoundTrip
import LinkDump.Proofs.InspectedRecords

/-! # Inspecting what was inspected
What inspecting prints is a dump again, with one record on each line: the line breaks that a record
held are spelled out, the blank lines behind the fields are gone, and every link has its bars. As
long as the first link does not look like part of a header, that dump is decoded to the same
records, `MetaField.onOneLine` and `Link.onOneLine`, and inspecting it prints them as they are. -/

namespace LinkDump

/-! ## Texts on one line -/

section OneLine

variable {text : Text} {c : Char}

theorem oneLine_nil : oneLine [] = [] := rfl

theorem oneLine_cons (c : Char) (text : Text) :
    oneLine (c :: text) = listingChar c ++ oneLine text := rfl

/-- Texts that are joined are spelled one after the other. -/
theorem oneLine_append (s t : Text) : oneLine (s ++ t) = oneLine s ++ oneLine t :=
  List.flatMap_append

/-- A text that is on one line stays as it is. -/
theorem oneLine_of_forall (h : ∀ c ∈ text, c ≠ '\r' ∧ c ≠ '\n') : oneLine text = text := by
  induction text with
  | nil => rfl
  | cons c text ih =>
    rw [List.forall_mem_cons] at h
    rw [oneLine_cons, listingChar, if_neg h.1.1, if_neg h.1.2, ih h.2, List.singleton_append]

/-- A spelling on one line has nothing left to spell out. -/
theorem oneLine_oneLine (text : Text) : oneLine (oneLine text) = oneLine text :=
  oneLine_of_forall fun _ => ne_of_mem_oneLine

/-- No character is spelled by nothing. -/
theorem oneLine_eq_nil_iff : oneLine text = [] ↔ text = [] := by
  cases text with
  | nil => exact Iff.rfl
  | cons c text =>
    rcases listingChar_cases c with ⟨h, -⟩ | h | h <;> simp [oneLine_cons, h]

/-- A spelling starts like its text, or with the backslash of an escape. -/
theorem head?_oneLine (h : (oneLine text).head? = some c) : text.head? = some c ∨ c = '\\' := by
  cases text with
  | nil => cases h
  | cons d text =>
    rcases listingChar_cases d with ⟨hd, -⟩ | hd | hd <;> rw [oneLine_cons, hd] at h <;> cases h
    · exact .inl rfl
    · exact .inr rfl
    · exact .inr rfl

/-- Spelling a text on one line adds no bar. -/
theorem bar_not_mem_oneLine (h : '|' ∉ text) : '|' ∉ oneLine text := by
  rw [oneLine, List.mem_flatMap]
  rintro ⟨d, hd, hmem⟩
  rcases listingChar_cases d with ⟨hspelled, -⟩ | hspelled | hspelled <;> rw [hspelled] at hmem
  · exact h (List.mem_singleton.mp hmem ▸ hd)
  · exact absurd hmem (by decide)
  · exact absurd hmem (by decide)

/-- A spelling on one line does not end with a carriage return. -/
theorem getLast?_oneLine_ne (text : Text) : (oneLine text).getLast? ≠ some '\r' :=
  fun hlast => (ne_of_mem_oneLine (List.mem_of_getLast? hlast)).1 rfl

/-- A newline behind a text on one line is dropped again, and nothing else. -/
theorem dropLineBreak_oneLine (text : Text) :
    dropLineBreak (oneLine text ++ ['\n']) = oneLine text :=
  dropLineBreak_append_newline (getLast?_oneLine_ne text)

end OneLine

/-! ## Records on one line -/

namespace MetaField

variable {field : MetaField}

/-- The field with its value on one line. -/
def onOneLine (field : MetaField) : MetaField := { field with value := oneLine field.value }

/-- A name has letters only, so nothing of it is spelled out. -/
theorem Shaped.render_onOneLine (h : field.Shaped) :
    field.onOneLine.render = oneLine field.render := by
  have hname : oneLine field.name = field.name := by
    apply oneLine_of_forall
    intro c hc
    obtain ⟨hlow, -⟩ := h.letters c hc
    constructor <;> rintro rfl <;> exact absurd hlow (by decide)
  have hrender : oneLine field.render = '#' :: (oneLine field.name ++ ':' :: ' ' ::
      oneLine field.value) := by
    rw [render, List.cons_append, oneLine_cons, oneLine_append]
    rfl
  rw [hrender, hname]
  rfl

/-- A field that was read can be rendered and read again, once it is on one line. -/
theorem Shaped.renders_onOneLine (h : field.Shaped) : field.onOneLine.Renders where
  name_ne_nil := h.name_ne_nil
  all_isUpper := List.all_eq_true.mpr fun c hc => isUpper_iff.mpr (h.letters c hc)
  newline_not_mem := newline_not_mem_oneLine field.value
  any_isBlankChar := by
    rw [onOneLine, Option.any_eq_false]
    intro c hc
    rcases head?_oneLine hc with hhead | rfl
    · rw [← Bool.not_eq_true, isBlankChar_iff, not_or]
      exact h.no_blank c hhead
    · rfl
  getLast?_ne := getLast?_oneLine_ne field.value

/-- The line of a field on one line gives it back. -/
theorem Shaped.fieldOfLine_onOneLine (h : field.Shaped) :
    fieldOfLine (oneLine field.render ++ ['\n']) = .ok field.onOneLine := by
  have hrow : (⟨oneLine field.render, .newline⟩ : Row).text = field.onOneLine.render :=
    h.render_onOneLine.symm
  exact h.renders_onOneLine.fieldOfLine_line hrow

end MetaField

namespace Link

variable {link : Link} {dialect : Dialect}

/-- The link with each of its parts on one line. -/
def onOneLine (link : Link) : Link :=
  { source := oneLine link.source, target := oneLine link.target, note := oneLine link.note }

/-- A link on one line has a note exactly if it had one before. -/
theorem hasNote_onOneLine (link : Link) : link.onOneLine.hasNote = link.hasNote := by
  rw [hasNote, hasNote, onOneLine, Bool.eq_iff_iff]
  simp [oneLine_eq_nil_iff]

/-- A link on one line is rendered as its rendering is spelled on one line. -/
theorem render_onOneLine (link : Link) : link.onOneLine.render = oneLine link.render := by
  rw [render, hasNote_onOneLine, render]
  split
  · rw [List.append_assoc, List.append_assoc, List.cons_append, List.cons_append, oneLine_append,
      oneLine_cons, oneLine_append, oneLine_cons]
    rfl
  · rw [oneLine_append, oneLine_cons]
    rfl

/-- The line of a link on one line gives it back, where every line is one link. -/
theorem Shaped.parse_onOneLine {parse : Text → Except LineError Link}
    (hparse : dialect.ofLine = some parse) (h : link.Shaped dialect) :
    parse (oneLine link.render ++ ['\n']) = .ok link.onOneLine := by
  cases dialect with
  | rfc =>
    obtain rfl := Option.some.inj hparse
    simp only [Shaped, List.forall_mem_cons] at h
    obtain ⟨⟨hsource, -⟩, ⟨htarget, -⟩, ⟨hnote, -⟩, -⟩ := h
    have hbars : ∀ part ∈ [link.onOneLine.source, link.onOneLine.note, link.onOneLine.target],
        '|' ∉ part := by
      simp only [List.forall_mem_cons]
      exact ⟨bar_not_mem_oneLine hsource, bar_not_mem_oneLine hnote, bar_not_mem_oneLine htarget,
        List.forall_mem_nil _⟩
    have hgiven := ofBars_render hbars
    rwa [render_onOneLine, ← dropLineBreak_oneLine] at hgiven
  | variableWidth =>
    obtain rfl := Option.some.inj hparse
    obtain ⟨source, target, note⟩ := link
    obtain ⟨rfl, hbar, -⟩ := h
    rw [← render_onOneLine, onOneLine, oneLine_nil, render_of_note_nil, List.append_assoc,
      List.cons_append, ofFirstBar_append_bar (bar_not_mem_oneLine hbar), dropLineBreak_oneLine]
  | fixedWidth width => cases hparse

end Link

/-! ## What is printed, as a dump -/

/-- Records on lines of their own. -/
def printedLines (records : List Text) : List Text :=
  records.map fun record => oneLine record ++ ['\n']

/-- What is printed is read as the lines that were printed. -/
theorem textLines_unlines_oneLine (records : List Text) :
    textLines (unlines (records.map oneLine)) = printedLines records := by
  rw [textLines_unlines_of_forall, List.map_map]
  · rfl
  · rw [List.forall_mem_map]
    exact fun record _ => newline_not_mem_oneLine record

section Printed

variable {fields : List MetaField} {links : List Link} {dialect : Dialect}

/-- The fields are printed on meta lines. -/
theorem isMetaLine_of_mem_printedLines {line : Text}
    (h : line ∈ printedLines (fields.map MetaField.render)) : isMetaLine line = true := by
  rw [printedLines, List.map_map] at h
  obtain ⟨field, -, rfl⟩ := List.mem_map.mp h
  rfl

/-- No link is printed on a blank line. -/
theorem isBlankLine_of_mem_printedLines {line : Text}
    (h : line ∈ printedLines (links.map Link.render)) : isBlankLine line = false := by
  rw [printedLines, List.map_map] at h
  obtain ⟨link, -, rfl⟩ := List.mem_map.mp h
  have hrow : (⟨oneLine link.render, .newline⟩ : Row).text = link.onOneLine.render :=
    link.render_onOneLine.symm
  exact Link.isBlankLine_line hrow

/-- The lines of the fields are accepted, and give the fields on one line. -/
theorem fieldOfLine_printedLines (h : ∀ field ∈ fields, field.Shaped) :
    (printedLines (fields.map MetaField.render)).map fieldOfLine =
      (fields.map MetaField.onOneLine).map .ok := by
  rw [printedLines, List.map_map, List.map_map, List.map_map]
  exact List.map_congr_left fun field hfield => (h field hfield).fieldOfLine_onOneLine

/-- The lines of the links are accepted, and give the links on one line. -/
theorem parse_printedLines {parse : Text → Except LineError Link}
    (hparse : dialect.ofLine = some parse) (h : ∀ link ∈ links, link.Shaped dialect) :
    (printedLines (links.map Link.render)).map parse = (links.map Link.onOneLine).map .ok := by
  rw [printedLines, List.map_map, List.map_map, List.map_map]
  exact List.map_congr_left fun link hlink => (h link hlink).parse_onOneLine hparse

/-- A text that is printed records is decoded to these records on one line each, if the first link
does not look like part of a header. -/
theorem decode_of_printedLines {parse : Text → Except LineError Link}
    (hparse : dialect.ofLine = some parse) (hfields : ∀ field ∈ fields, field.Shaped)
    (hlinks : ∀ link ∈ links, link.Shaped dialect) {text : Text}
    (htext : textLines text =
      printedLines (fields.map MetaField.render) ++ printedLines (links.map Link.render))
    (hfirst : ∀ line ∈ (printedLines (links.map Link.render)).head?,
      line.head? ≠ some '#' ∧ (fields = [] → line.head? ≠ some '\uFEFF'))
    {source : Source} (hchunks : source.AllChunks) (hbytes : source.bytes = Utf8.encode text) :
    decode dialect source =
      ⟨fields.map .onOneLine, links.map .onOneLine, none, (textLines text).length⟩ := by
  -- The text starts like its first line, which is no mark.
  have hmark : text.head? ≠ some '\uFEFF' := by
    rw [← head?_textLines, htext]
    cases fields with
    | cons field fields => exact fun hhead => absurd (Option.some.inj hhead) (by decide)
    | nil =>
      rw [List.map_nil, printedLines, List.map_nil, List.nil_append]
      cases links with
      | nil => exact Option.some_ne_none _ ∘ Eq.symm
      | cons link links => exact (hfirst _ rfl).2 rfl
  have hdump : dumpTexts source.bytes = textLines text := by
    rw [hbytes, dumpTexts_encode hmark]
  -- No blank line stands behind the fields.
  have hheader := @header_of_runs (printedLines (fields.map MetaField.render)) []
    (printedLines (links.map Link.render)) (fun _ => isMetaLine_of_mem_printedLines)
    (List.forall_mem_nil _) (fun _ => rfl)
    (fun _ line hline => by simpa [isMetaLine] using (hfirst line hline).1)
    (fun line hline => isBlankLine_of_mem_printedLines (List.mem_of_head? hline))
  rw [List.nil_append, ← htext, ← hdump] at hheader
  have hgiven : (metaLines (dumpTexts source.bytes)).map fieldOfLine =
      (fields.map MetaField.onOneLine).map .ok := by
    rw [hheader.1, fieldOfLine_printedLines hfields]
  have hparsed : (linkTexts source.bytes).map parse = (links.map Link.onOneLine).map .ok := by
    rw [linkTexts, hheader.2, parse_printedLines hparse hlinks]
  rw [decode_of_accepted hchunks hparse _ _ hgiven hparsed, hdump]

end Printed

/-! ## Inspecting twice -/

/-- Records that are on one line each are printed as they are. -/
theorem map_oneLine_render_onOneLine {fields : List MetaField}
    (h : ∀ field ∈ fields, field.Shaped) (links : List Link) (failure : Option DecodeError)
    (count : Nat) :
    (Decoded.mk (fields.map .onOneLine) (links.map .onOneLine) failure count).render.map oneLine =
      (fields.map MetaField.render ++ links.map Link.render).map oneLine := by
  have hfields : ∀ field ∈ fields, oneLine field.onOneLine.render = oneLine field.render :=
    fun field hfield => by rw [(h field hfield).render_onOneLine, oneLine_oneLine]
  have hlinks : ∀ link ∈ links, oneLine link.onOneLine.render = oneLine link.render :=
    fun link _ => by rw [link.render_onOneLine, oneLine_oneLine]
  simp only [Decoded.render, List.map_append, List.map_map]
  exact congrArg₂ (· ++ ·) (List.map_congr_left hfields) (List.map_congr_left hlinks)

/-- What is printed of a dump are its fields, on so many lines, and then its links. -/
theorem textLines_render (decoded : Decoded) :
    textLines (unlines (decoded.render.map oneLine)) =
        printedLines (decoded.fields.map MetaField.render) ++
          printedLines (decoded.links.map Link.render) ∧
      (textLines (unlines (decoded.render.map oneLine))).drop decoded.fields.length =
        printedLines (decoded.links.map Link.render) := by
  have hlines : textLines (unlines (decoded.render.map oneLine)) =
      printedLines (decoded.fields.map MetaField.render) ++
        printedLines (decoded.links.map Link.render) := by
    rw [textLines_unlines_oneLine, printedLines, Decoded.render, List.map_append]
    rfl
  have hlength : (printedLines (decoded.fields.map MetaField.render)).length =
      decoded.fields.length := by
    rw [printedLines, List.length_map, List.length_map]
  refine ⟨hlines, ?_⟩
  rw [hlines, ← hlength, List.drop_left]

namespace CommandLine

variable {dialect : Dialect} {source : Source}

/-- Inspecting succeeds only on a dump that is decoded to its end. -/
theorem failure_of_inspect {file : Text}
    (h : (inspect none false file (.ofSource dialect source)).exit = 0) :
    (decode dialect source).failure = none := by
  cases hfailure : (decode dialect source).failure with
  | none => rfl
  | some e =>
    rw [(inspect_of_failure hfailure file).1] at h
    cases h

/-- Inspecting makes a dump that inspecting leaves as it is. This holds of every dump, in the two
dialects with one link on each line, wherever inspecting succeeds on it and the first link that it
prints, if there is one, is not taken for part of a header: it must not start with `#`, nor, if
there are no meta fields, with a byte order mark. The second dump may arrive in any chunks. -/
theorem inspect_of_inspected {arguments arguments' : List Text} {place place' : Place}
    {file file' : Text} {source' : Source}
    (hdialect : dialect = .rfc ∨ dialect = .variableWidth)
    (hparse : parse arguments = some ⟨.inspect none false, file, dialect⟩)
    (hopen : place.openFile file = .ok source) (hexit : (run arguments place).exit = 0)
    (hfirst : ∀ line ∈ ((textLines (run arguments place).stdout).drop
        (decode dialect source).fields.length).head?,
      line.head? ≠ some '#' ∧
        ((decode dialect source).fields = [] → line.head? ≠ some '\uFEFF'))
    (hparse' : parse arguments' = some ⟨.inspect none false, file', dialect⟩)
    (hopen' : place'.openFile file' = .ok source') (hchunks : source'.AllChunks)
    (hbytes : source'.bytes = Utf8.encode (run arguments place).stdout) :
    (run arguments' place').exit = 0 ∧
      (run arguments' place').stdout = (run arguments place).stdout := by
  have hrun : run arguments place = inspect none false file (.ofSource dialect source) :=
    run_of_parse hparse hopen
  have hrun' : run arguments' place' = inspect none false file' (.ofSource dialect source') :=
    run_of_parse hparse' hopen'
  rw [hrun] at hexit
  rw [hrun, inspect_of_end (failure_of_inspect hexit)] at hfirst hbytes ⊢
  obtain ⟨hlines, hlinks⟩ := textLines_render (decode dialect source)
  simp only [Outcome.success] at hfirst hbytes
  rw [hlinks] at hfirst
  obtain ⟨parse, hline⟩ : ∃ parse, dialect.ofLine = some parse := by
    rcases hdialect with rfl | rfl <;> exact ⟨_, rfl⟩
  -- The second dump is decoded to the records that were printed.
  have hdecode := decode_of_printedLines hline (fun _ => shaped_of_mem_fields)
    (fun _ => shaped_of_mem_decode) hlines hfirst hchunks hbytes
  have hend : (decode dialect source').failure = none := by rw [hdecode]
  have hprinted : (decode dialect source').render.map oneLine =
      (decode dialect source).render.map oneLine := by
    rw [hdecode]
    exact map_oneLine_render_onOneLine (fun _ => shaped_of_mem_fields) _ _ _
  rw [hrun', inspect_of_end hend, hprinted]
  exact ⟨rfl, rfl⟩

/-- A dump with a tab behind the name of its field, a line with a blank behind the field, a link
that has only a source with a carriage return in it, and a link with an empty source and note. -/
def spreadDump : Bytes := Utf8.encode "#A\tb\n \na\rb\n||c".toList

/-- All of that is evened out once, and then stays. -/
theorem inspect_of_inspected_spreadDump :
    let outcome (dump : Bytes) := run (["inspect", "dump.txt"].map String.toList)
      { here := [("dump.txt".toList, .file dump)] }
    let printed := "#A: b\na\\rb|\n|c\n".toList
    (outcome spreadDump).stdout = printed ∧
      (outcome (Utf8.encode printed)).exit = 0 ∧ (outcome (Utf8.encode printed)).stdout = printed := by
  intro outcome printed
  have hparse : parse (["inspect", "dump.txt"].map String.toList) =
      some ⟨.inspect none false, "dump.txt".toList, .rfc⟩ := by decide +kernel
  have hopen (dump : Bytes) : Place.openFile { here := [("dump.txt".toList, .file dump)] }
      "dump.txt".toList = .ok (.ofBytes dump) := rfl
  have hstdout : (outcome spreadDump).stdout = printed := by decide +kernel
  have hagain := inspect_of_inspected (.inl rfl) hparse (hopen spreadDump) (by decide +kernel)
    (by decide +kernel) hparse (hopen (Utf8.encode (outcome spreadDump).stdout))
    (by simp [Source.ofBytes]) (Source.bytes_ofBytes _)
  refine ⟨hstdout, ?_⟩
  rw [← hstdout]
  exact hagain

end CommandLine

end LinkDump
