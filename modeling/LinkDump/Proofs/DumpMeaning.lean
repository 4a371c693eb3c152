import LinkDump.Proofs.RecordRun
import LinkDump.Report.Items

/-! # What the lines of a dump say
Over chunks, decoding a dump is a function of its lines: `Decoded.ofLines`, in which there is no
source, no cursor and no line that waits. The meta lines give the fields up to the first one that is
refused; if none is, the lines behind the header give items, each a link or an error, and what is
decoded are the items up to the first error. Two dumps are decoded alike if this function cannot
tell their lines apart, and then nothing more has to be said about how they are read. The first case
is a dump with a byte order mark in front, which has the lines of the dump without it. -/

namespace LinkDump

/-! ## The links of lines -/

/-- What the lines behind a header say, one item after the other. Where sources have a fixed width,
each record is a link, and lines in front of all records are an error. -/
def Dialect.items : Dialect → List Text → List (Except LineError Link)
  | rfc, lines => lines.map fun line => Link.ofBars (dropLineBreak line)
  | variableWidth, lines => lines.map Link.ofFirstBar
  | fixedWidth width, lines =>
    match RecordLines.cut width lines with
    | ([], records) => records.map fun record => .ok record.link
    | (line :: _, _) => [.error (.misplaced width line)]

/-- With a link on each line, the items are what the lines are parsed to. -/
theorem Dialect.items_of_ofLine {dialect : Dialect} {parse : Text → Except LineError Link}
    (h : dialect.ofLine = some parse) (lines : List Text) :
    dialect.items lines = lines.map parse := by
  cases dialect with
  | rfc =>
    obtain rfl := Option.some.inj h
    rfl
  | variableWidth =>
    obtain rfl := Option.some.inj h
    rfl
  | fixedWidth width => cases h

/-- Lines of which the first starts a record are all links. -/
theorem Dialect.items_of_cut {width : Nat} {lines : List Text}
    (h : (RecordLines.cut width lines).1 = []) :
    (fixedWidth width).items lines =
      ((RecordLines.cut width lines).2.map RecordLines.link).map .ok := by
  rw [items]
  generalize RecordLines.cut width lines = parts at h
  obtain ⟨front, records⟩ := parts
  obtain rfl : front = [] := h
  exact List.map_map.symm

/-- A line in front of all records is all that is read. -/
theorem Dialect.items_of_not_barAt {width : Nat} {line : Text} (h : ¬BarAt width line)
    (lines : List Text) :
    (fixedWidth width).items (line :: lines) = [.error (.misplaced width line)] := by
  rw [items, RecordLines.cut_cons_of_not_barAt h]

namespace Decoded

/-- What is decoded from the lines behind a header of `count` lines: the items up to the first
error. An error lies in the line behind those of the links. -/
def ofLinkLines (dialect : Dialect) (fields : List MetaField) (count : Nat) (lines : List Text) :
    Decoded :=
  match cutAtError (dialect.items lines) with
  | (links, none) => ⟨fields, links, none, count + lines.length⟩
  | (links, some e) =>
    ⟨fields, links, some ⟨count + links.length + 1, e⟩, count + links.length + 1⟩

/-- Items without an error are the links, and all lines are read. -/
theorem ofLinkLines_of_items {dialect : Dialect} {lines : List Text} {links : List Link}
    (h : dialect.items lines = links.map .ok) (fields : List MetaField) (count : Nat) :
    ofLinkLines dialect fields count lines = ⟨fields, links, none, count + lines.length⟩ := by
  rw [ofLinkLines, h, cutAtError_map_ok]

/-- What is decoded from the lines of a dump, each with its line break. -/
def ofLines (dialect : Dialect) (lines : List Text) : Decoded :=
  match cutAtError ((metaLines lines).map fieldOfLine) with
  | (fields, none) =>
    ofLinkLines dialect fields (headerLength lines) (lines.drop (headerLength lines))
  | (fields, some e) => ⟨fields, [], some ⟨fields.length + 1, e⟩, fields.length + 1⟩

/-- Behind an accepted header, a dump means what its link lines mean. -/
theorem ofLines_of_accepted {lines : List Text} {fields : List MetaField}
    (h : (metaLines lines).map fieldOfLine = fields.map .ok) (dialect : Dialect) :
    ofLines dialect lines =
      ofLinkLines dialect fields (headerLength lines) (lines.drop (headerLength lines)) := by
  rw [ofLines, h, cutAtError_map_ok]

end Decoded

/-- Links are read from the lines that are still to come, and from nothing else. -/
theorem Reader.finish_of_standsAt {cursor : Cursor} {count : Nat} {lines : List Bytes}
    (h : cursor.StandsAt count lines) (dialect : Dialect) (fields : List MetaField) :
    finish ⟨cursor, dialect, fields, .links⟩ =
      Decoded.ofLinkLines dialect fields count (lines.map Utf8.decode) := by
  -- Where each line is parsed alone, the first one that is refused ends the reading.
  have hparsed : ∀ parse, dialect.ofLine = some parse →
      finish ⟨cursor, dialect, fields, .links⟩ =
        Decoded.ofLinkLines dialect fields count (lines.map Utf8.decode) := by
    intro parse hparse
    have hitems := Dialect.items_of_ofLine hparse (lines.map Utf8.decode)
    rcases exists_map_ok_or_error ((lines.map Utf8.decode).map parse) with
      ⟨links, hlinks⟩ | ⟨links, e, rest, hlinks⟩
    · rw [finish_of_accepted h hparse hlinks, Decoded.ofLinkLines_of_items (hitems.trans hlinks),
        List.length_map]
    · obtain ⟨before, after, hsplit, hbefore, hafter⟩ := List.map_eq_append_iff.mp hlinks
      obtain ⟨front, back, rfl, rfl, hback⟩ := List.map_eq_append_iff.mp hsplit
      obtain ⟨text, texts, rfl, hrefused, -⟩ := List.map_eq_cons_iff.mp hafter
      obtain ⟨line, others, rfl, rfl, -⟩ := List.map_eq_cons_iff.mp hback
      have hlength : front.length = links.length := by
        simpa using congrArg List.length hbefore
      rw [finish_of_refused h hparse hbefore hrefused, Decoded.ofLinkLines, hitems, hlinks,
        cutAtError_map_ok_append_error, hlength]
  cases dialect with
  | rfc => exact hparsed _ rfl
  | variableWidth => exact hparsed _ rfl
  | fixedWidth width =>
    obtain ⟨hlines, hfront, hfits⟩ := RecordLines.cut_spec width (lines.map Utf8.decode)
    by_cases hcut : (RecordLines.cut width (lines.map Utf8.decode)).1 = []
    · rw [hcut, List.nil_append] at hlines
      obtain ⟨cursor', hline, hrun⟩ := readLinks_of_records h hfits hlines.symm fields
      rw [Decoded.ofLinkLines_of_items (Dialect.items_of_cut hcut), finish, hrun,
        List.length_map]
      simp only [Reader.line, hline]
    · -- There is a line in front of the records, which is the first one that is read.
      obtain ⟨text, texts, hcons⟩ := List.exists_cons_of_ne_nil hcut
      rw [hcons] at hlines hfront
      obtain ⟨line, others, rfl, rfl, hothers⟩ := List.map_eq_cons_iff.mp hlines.symm
      have hbar := hfront (Utf8.decode line) List.mem_cons_self
      obtain ⟨cursor', hread, hline⟩ := h.readLink_misplaced hbar
      rw [Decoded.ofLinkLines, List.map_cons, Dialect.items_of_not_barAt hbar, cutAtError_error,
        finish, readLinks_of_error hread]
      simp only [Reader.line, hline, List.length_nil, Nat.add_zero]

/-- What a dump that arrives in chunks is decoded to is what its lines say. -/
theorem decode_eq_ofLines {source : Source} (hchunks : source.AllChunks) (dialect : Dialect) :
    decode dialect source = Decoded.ofLines dialect (dumpTexts source.bytes) := by
  rcases exists_map_ok_or_error ((metaLines (dumpTexts source.bytes)).map fieldOfLine) with
    ⟨fields, hfields⟩ | ⟨fields, e, rest, hfields⟩
  · obtain ⟨cursor, lines, hscan, hstands, hlines⟩ :=
      Reader.readFields_of_accepted dialect hchunks fields hfields
    rw [decode_of_readFields_eq_ok hscan, Reader.finish_of_standsAt hstands, hlines,
      Decoded.ofLines_of_accepted hfields]
    rfl
  · obtain ⟨before, after, hlines, hbefore, hafter⟩ := List.map_eq_append_iff.mp hfields
    obtain ⟨line, others, rfl, hrefused, -⟩ := List.map_eq_cons_iff.mp hafter
    obtain ⟨cursor, hscan, hline⟩ := Cursor.scanHeader_of_refused hchunks hlines hbefore hrefused
    have hlength : before.length = fields.length := by
      simpa using congrArg List.length hbefore
    rw [decode_of_scanHeader_eq_error hscan, Decoded.ofLines, hfields,
      cutAtError_map_ok_append_error, hline, hlength]

/-! ## Dumps that are read to their end -/

section ReadToEnd

variable {source : Source} (hchunks : source.AllChunks) {dialect : Dialect}
  {fields : List MetaField} {links : List Link}
  (hfields : (metaLines (dumpTexts source.bytes)).map fieldOfLine = fields.map .ok)
include hchunks hfields

/-- Behind a header that is accepted, lines that are all links are decoded to these links. -/
theorem decode_of_items (hitems : dialect.items (linkTexts source.bytes) = links.map .ok) :
    decode dialect source = ⟨fields, links, none, (dumpTexts source.bytes).length⟩ := by
  rw [decode_eq_ofLines hchunks, Decoded.ofLines_of_accepted hfields, ← linkTexts,
    Decoded.ofLinkLines_of_items hitems, headerLength_add_length_linkTexts]

/-- Without an error the links are all that the lines behind the header say. -/
theorem items_of_decode (hend : (decode dialect source).failure = none) :
    dialect.items (linkTexts source.bytes) = (decode dialect source).links.map .ok := by
  rcases exists_map_ok_or_error (dialect.items (linkTexts source.bytes)) with
    ⟨links, hitems⟩ | ⟨links, e, rest, hitems⟩
  · rw [decode_of_items hchunks hfields hitems]
    exact hitems
  · rw [decode_eq_ofLines hchunks, Decoded.ofLines_of_accepted hfields, ← linkTexts,
      Decoded.ofLinkLines, hitems, cutAtError_map_ok_append_error] at hend
    cases hend

end ReadToEnd

/-- A dump whose header is accepted, and whose other lines all give a link, is read to its end. -/
theorem decode_of_accepted {source : Source} (hchunks : source.AllChunks) {dialect : Dialect}
    {parse : Text → Except LineError Link} (hparse : dialect.ofLine = some parse)
    (fields : List MetaField) (links : List Link)
    (hfields : (metaLines (dumpTexts source.bytes)).map fieldOfLine = fields.map .ok)
    (hlinks : (linkTexts source.bytes).map parse = links.map .ok) :
    decode dialect source = ⟨fields, links, none, (dumpTexts source.bytes).length⟩ :=
  decode_of_items hchunks hfields ((Dialect.items_of_ofLine hparse _).trans hlinks)

/-- A dump that is read to its end gives one link for each line behind its header. -/
theorem map_parse_of_decode {source : Source} (hchunks : source.AllChunks) {dialect : Dialect}
    {parse : Text → Except LineError Link} (hparse : dialect.ofLine = some parse)
    {fields : List MetaField}
    (hfields : (metaLines (dumpTexts source.bytes)).map fieldOfLine = fields.map .ok)
    (hend : (decode dialect source).failure = none) :
    (linkTexts source.bytes).map parse = (decode dialect source).links.map .ok := by
  rw [← Dialect.items_of_ofLine hparse]
  exact items_of_decode hchunks hfields hend

/-- A dump whose header is accepted, and whose other lines fall into records, is read to its end. -/
theorem decode_of_fits {source : Source} (hchunks : source.AllChunks) {width : Nat}
    (fields : List MetaField) (records : List RecordLines)
    (hfields : (metaLines (dumpTexts source.bytes)).map fieldOfLine = fields.map .ok)
    (hfits : ∀ record ∈ records, record.Fits width)
    (hlines : linkTexts source.bytes = records.flatMap RecordLines.lines) :
    decode (.fixedWidth width) source = ⟨fields, records.map RecordLines.link, none,
      (dumpTexts source.bytes).length⟩ := by
  have hcut : RecordLines.cut width (linkTexts source.bytes) = ([], records) := by
    rw [hlines, RecordLines.cut_flatMap hfits]
  have hitems := Dialect.items_of_cut (congrArg Prod.fst hcut)
  rw [hcut] at hitems
  exact decode_of_items hchunks hfields hitems

/-- A dump that is read to its end falls into records, and gives the link of each. -/
theorem exists_records_of_decode {source : Source} (hchunks : source.AllChunks) {width : Nat}
    {fields : List MetaField}
    (hfields : (metaLines (dumpTexts source.bytes)).map fieldOfLine = fields.map .ok)
    (hend : (decode (.fixedWidth width) source).failure = none) :
    ∃ records : List RecordLines, linkTexts source.bytes = records.flatMap RecordLines.lines ∧
      (decode (.fixedWidth width) source).links = records.map RecordLines.link := by
  have hitems := items_of_decode hchunks hfields hend
  obtain ⟨hlines, hfront, -⟩ := RecordLines.cut_spec width (linkTexts source.bytes)
  by_cases hcut : (RecordLines.cut width (linkTexts source.bytes)).1 = []
  · rw [hcut, List.nil_append] at hlines
    refine ⟨_, hlines.symm, ?_⟩
    rw [Dialect.items_of_cut hcut] at hitems
    exact ((List.map_inj_right fun _ _ => Except.ok.inj).mp hitems).symm
  · -- A line in front of the records would have been an error.
    obtain ⟨line, front, hcons⟩ := List.exists_cons_of_ne_nil hcut
    rw [hcons] at hlines hfront
    rw [← hlines, List.cons_append,
      Dialect.items_of_not_barAt (hfront line List.mem_cons_self)] at hitems
    generalize (decode (.fixedWidth width) source).links = links at hitems
    cases links <;> cases hitems

/-! ## A mark in front -/

/-- A byte order mark is transparent: whatever follows it, unless that is a second mark, is decoded
as it is without the mark, to the same fields, links and error, with the same line numbers. Neither
the chunks of the one dump nor those of the other make a difference. -/
theorem decode_of_mark_in_front {source source' : Source} (hchunks : source.AllChunks)
    (hchunks' : source'.AllChunks) (hbytes : source'.bytes = byteOrderMark ++ source.bytes)
    (hmark : ¬byteOrderMark <+: source.bytes) (dialect : Dialect) :
    decode dialect source' = decode dialect source := by
  rw [decode_eq_ofLines hchunks', decode_eq_ofLines hchunks, hbytes, dumpTexts, dumpTexts,
    dumpLines, dumpLines, dropMark_mark_append, dropMark_of_unmarked hmark]

/-- A dump that starts almost like a mark, behind a mark in two pieces. Its first character is the
source of its only link. -/
theorem decode_near_mark_behind_mark :
    decode (.fixedWidth 3) [.chunk 0xEF [], .chunk 0xBB [0xBF, 0xEF, 0xBB], .chunk 0xBE [0x7C]] =
        decode (.fixedWidth 3) [.chunk 0xEF [0xBB], .chunk 0xBE [0x7C]] ∧
      decode (.fixedWidth 3) [.chunk 0xEF [0xBB], .chunk 0xBE [0x7C]] =
        ⟨[], [⟨['\uFEFE'], [], []⟩], none, 1⟩ := by
  refine ⟨?_, by decide +kernel⟩
  exact decode_of_mark_in_front (by simp) (by simp) (by decide) (by decide) _

end LinkDump
