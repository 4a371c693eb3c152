import LinkDump.Proofs.BarsNormalForm
import LinkDump.Proofs.FieldGrammar
import LinkDump.Proofs.Linewise
import LinkDump.Proofs.SessionLines
import LinkDump.Proofs.SingleLines

/-! # The shape of what is decoded
What a decoder gives has a shape, whatever it reads and whatever is called. A cursor hands out
single lines, the waiting line included, and each rule for fields and links keeps newlines and bars
out of what it cuts from them. A record runs over several lines, and over chunks none of them but
the first could start a record. -/

namespace LinkDump

/-! ## Fields and links -/

/-- A name of capital letters, and a value on one line that no blank comes before. -/
structure MetaField.Shaped (field : MetaField) : Prop where
  name_ne_nil : field.name ≠ []
  letters : ∀ c ∈ field.name, 'A' ≤ c ∧ c ≤ 'Z'
  newline_not_mem : '\n' ∉ field.value
  no_blank : ∀ c ∈ field.value.head?, c ≠ ' ' ∧ c ≠ '\t'

/-- What the rule of a dialect keeps out of a link. -/
def Link.Shaped : Dialect → Link → Prop
  | .rfc, link => ∀ text ∈ [link.source, link.target, link.note], '|' ∉ text ∧ '\n' ∉ text
  | .variableWidth, link =>
    link.note = [] ∧ '|' ∉ link.source ∧ '\n' ∉ link.source ∧ '\n' ∉ link.target
  | .fixedWidth width, link =>
    link.note = [] ∧ Utf8.size link.source = width ∧ '\n' ∉ link.source

/-- A reply gives fields and links of that shape only. -/
def Reply.Shaped (dialect : Dialect) : Reply → Prop
  | .fields known => ∀ field ∈ known, field.Shaped
  | .link found => found.Shaped dialect
  | .nothing | .failed _ => True

/-- A field that is read from a text on one line has its shape. -/
theorem MetaField.shaped_of_ofText {text : Text} {field : MetaField}
    (h : ofText text = .ok field) (hn : '\n' ∉ text) : field.Shaped := by
  obtain ⟨spelling, rfl, rfl⟩ := Spelling.exists_of_ofText h
  obtain ⟨hname, hletters, hblank⟩ := spelling.proper
  refine ⟨hname, hletters, ?_, fun c hc => not_or.mp (hblank c hc)⟩
  intro hmem
  apply hn
  simp [Spelling.text, hmem]

/-- The fields between bars on one line have neither bars nor newlines. -/
theorem Link.shaped_of_ofBars {line : Text} {link : Link} (h : ofBars line = .ok link)
    (hn : '\n' ∉ line) : link.Shaped .rfc := by
  obtain ⟨hsaid, hbarless⟩ := saidBy_of_ofBars h
  have hnewline : '\n' ∉ link.source ∧ '\n' ∉ link.target ∧ '\n' ∉ link.note := by
    cases hsaid with
    | source source => simpa using hn
    | target source target => simpa using hn
    | note source note target =>
      simp only [List.mem_append, List.mem_cons, not_or] at hn
      exact ⟨hn.1, hn.2.2.2.2, hn.2.2.1⟩
  simp only [Shaped, List.forall_mem_cons]
  exact ⟨⟨hbarless.source, hnewline.1⟩, ⟨hbarless.target, hnewline.2.1⟩,
    ⟨hbarless.note, hnewline.2.2⟩, List.forall_mem_nil _⟩

/-- What the first bar cuts out of a single line has its shape. -/
theorem Link.shaped_of_ofFirstBar {raw : Text} {link : Link} (h : ofFirstBar raw = .ok link)
    (hraw : SingleLine raw) : link.Shaped .variableWidth := by
  rw [ofFirstBar] at h
  split at h
  · cases h
  next c target hrest =>
    cases h
    have hcut := List.takeWhile_append_dropWhile (p := (· != '|')) (l := raw)
    rw [hrest] at hcut
    rw [← hcut] at hraw
    obtain ⟨hn, htarget⟩ := hraw.of_append_cons
    refine ⟨rfl, fun hbar => ?_, hn, htarget.not_mem_dropLineBreak⟩
    simpa using List.mem_takeWhile_imp hbar

/-- The source of a record has its width, and no newline. -/
theorem FixedRecord.source_of_start {width : Nat} {raw : Text} {record : FixedRecord}
    (h : start width raw = .ok record) (hraw : SingleLine raw) :
    Utf8.size record.source = width ∧ '\n' ∉ record.source := by
  obtain ⟨rfl, hsize, -⟩ := start_eq_ok_iff.mp h
  exact ⟨hsize, hraw.of_append_cons.1⟩

/-- Further lines do not change the source of a record. -/
theorem FixedRecord.source_absorb (record : FixedRecord) (raw : Text) :
    (record.absorb raw).2.source = record.source := by
  rw [absorb]
  split <;> rfl

/-! ## Cursors -/

namespace Cursor

variable {cursor cursor' : Cursor} {link : Link}

/-- The line that waits, if there is one, is a single line. -/
def HoldsSingleLine (cursor : Cursor) : Prop := ∀ line ∈ cursor.slot.held, SingleLine line

/-- A cursor hands out single lines, and the ones that it takes back are single lines as well. -/
theorem linewise_holdsSingleLine :
    Linewise HoldsSingleLine fun line cursor => SingleLine line ∧ cursor.HoldsSingleLine where
  look _ h := h
  take h := ⟨h _ rfl, fun _ hmem => nomatch hmem⟩
  pull h hseen hread := by
    refine ⟨singleLine_decode ?_, h⟩
    exact newline_not_mem_dropLast_append hseen (Source.newline_not_mem_dropLast_of_readLine hread)
  letGo h := h.2
  handBack h := by
    rintro line ⟨⟩
    exact h.1

/-- The lines that complete a record change neither its source nor its note. -/
theorem source_of_absorbLines {record : FixedRecord}
    (h : cursor.absorbLines record = .ok link cursor') :
    link.source = record.source ∧ link.note = [] := by
  fun_induction absorbLines record cursor with
  | case1 => cases h
  | case2 => cases h; exact ⟨rfl, rfl⟩
  | case3 record cursor raw cursor₁ hread record₁ habsorb ih =>
    have hsource := record.source_absorb raw
    rw [habsorb] at hsource
    rw [← hsource]
    exact ih h
  | case4 record cursor raw cursor₁ hread next record₁ habsorb cursor₂ hpush =>
    have hsource := record.source_absorb raw
    rw [habsorb] at hsource
    rw [← hsource]
    cases h
    exact ⟨rfl, rfl⟩
  | case5 => cases h

/-- In every dialect, a link that is read has the shape of that dialect. -/
theorem shaped_of_readLink {dialect : Dialect} (h : cursor.HoldsSingleLine)
    (hread : cursor.readLink dialect = .ok (some link) cursor') : link.Shaped dialect := by
  have hsingle : ∀ raw cursor₁, cursor.nextRawLine = .ok (some raw) cursor₁ → SingleLine raw :=
    fun raw cursor₁ hline => (linewise_holdsSingleLine.hand_of_nextRawLine h hline).1
  cases dialect with
  | rfc =>
    obtain ⟨raw, hline, hparsed⟩ := exists_line_of_readLink rfl hread
    exact Link.shaped_of_ofBars hparsed (hsingle _ _ hline).not_mem_dropLineBreak
  | variableWidth =>
    obtain ⟨raw, hline, hparsed⟩ := exists_line_of_readLink rfl hread
    exact Link.shaped_of_ofFirstBar hparsed (hsingle _ _ hline)
  | fixedWidth width =>
    obtain ⟨raw, record, cursor₁, hline, hstart, habsorb⟩ := exists_record_of_readLink hread
    obtain ⟨hsource, hnote⟩ := source_of_absorbLines habsorb
    obtain ⟨hsize, hn⟩ := FixedRecord.source_of_start hstart (hsingle _ _ hline)
    rw [← hsource] at hsize hn
    exact ⟨hnote, hsize, hn⟩

end Cursor

/-! ## The header -/

section Header

variable {scanner : Scanner}

/-- A line that is fed adds no field but one of the right shape. -/
theorem Scanner.shaped_feed {raw : Text} (hraw : SingleLine raw)
    (h : ∀ field ∈ scanner.fields, field.Shaped) :
    ∀ field ∈ (scanner.feed raw).2.fields, field.Shaped := by
  have hn := hraw.not_mem_dropLineBreak
  simp only [feed]
  split
  · split
    · exact h
    · split
      next text hline =>
        rw [hline] at hn
        split
        next field hfield =>
          have hshaped := MetaField.shaped_of_ofText hfield (mt (List.mem_cons_of_mem _) hn)
          exact List.forall_mem_append.mpr ⟨h, List.forall_mem_singleton.mpr hshaped⟩
        · exact h
      · exact h
  · split <;> exact h

namespace Cursor

variable {cursor : Cursor}

/-- Fields that are scanned have the right shape. -/
theorem shaped_scanLines (hcursor : cursor.HoldsSingleLine)
    (h : ∀ field ∈ scanner.fields, field.Shaped) :
    ∀ field ∈ (cursor.scanLines scanner).1.fields, field.Shaped := by
  -- A line that is fed is a single line, and the cursor behind it holds one at most.
  fun_induction scanLines scanner cursor with
  | case1 => exact h
  | case2 => exact h
  | case3 scanner cursor raw cursor₁ hread e scanner₁ hfeed =>
    have hraw := linewise_holdsSingleLine.hand_of_nextRawLine hcursor hread
    have hnext := Scanner.shaped_feed hraw.1 h
    rwa [hfeed] at hnext
  | case4 scanner cursor raw cursor₁ hread scanner₁ hfeed ih =>
    have hraw := linewise_holdsSingleLine.hand_of_nextRawLine hcursor hread
    have hnext := Scanner.shaped_feed hraw.1 h
    rw [hfeed] at hnext
    exact ih hraw.2 hnext
  | case5 scanner cursor raw cursor₁ hread line scanner₁ hfeed =>
    have hraw := linewise_holdsSingleLine.hand_of_nextRawLine hcursor hread
    have hnext := Scanner.shaped_feed hraw.1 h
    rwa [hfeed] at hnext

/-- The fields of a header behind the mark. -/
theorem shaped_scanUnmarked (hcursor : cursor.HoldsSingleLine)
    (h : ∀ field ∈ scanner.fields, field.Shaped) :
    ∀ field ∈ (cursor.scanUnmarked scanner).1.fields, field.Shaped := by
  have hpeek := linewise_holdsSingleLine.peekByte hcursor
  rw [scanUnmarked]
  split
  · exact h
  next hok =>
    rw [hok] at hpeek
    split
    · exact shaped_scanLines hpeek h
    · exact h

/-- The fields of a header, also of one that is refused later on. -/
theorem shaped_scanHeader (hcursor : cursor.HoldsSingleLine) :
    ∀ field ∈ cursor.scanHeader.1.fields, field.Shaped := by
  have hmark := linewise_holdsSingleLine.consumeMark hcursor
  have hnone : ∀ field ∈ ({} : Scanner).fields, field.Shaped := List.forall_mem_nil _
  rw [scanHeader_eq_scanUnmarked]
  split
  · exact hnone
  next hok =>
    rw [hok] at hmark
    exact shaped_scanUnmarked hmark hnone

end Cursor

end Header

/-! ## Sessions -/

namespace Reader

variable {reader : Reader} {dialect : Dialect}

/-- A reader that knows fields of the right shape only, and whose cursor holds a single line at
most. -/
structure Shaped (dialect : Dialect) (reader : Reader) : Prop where
  dialect_eq : reader.dialect = dialect
  fields : ∀ field ∈ reader.fields, field.Shaped
  cursor : reader.cursor.HoldsSingleLine

/-- A reader that has read nothing has the shape: it knows no fields, and holds no line. -/
theorem shaped_ofSource (dialect : Dialect) (source : Source) :
    (ofSource dialect source).Shaped dialect :=
  ⟨rfl, List.forall_mem_nil _, fun _ hmem => nomatch hmem⟩

/-- Reading the fields keeps the shape. -/
theorem Shaped.readFields (h : reader.Shaped dialect) :
    (stateAfter reader.readFields).Shaped dialect := by
  refine ⟨by rw [dialect_readFields, h.dialect_eq], ?_,
    Cursor.linewise_holdsSingleLine.reader_readFields h.cursor⟩
  have hscan := Cursor.shaped_scanHeader h.cursor
  rw [Reader.readFields]
  split
  · split
    next hok => rwa [hok] at hscan
    next herror => rwa [herror] at hscan
  · exact h.fields

/-- Reading a link keeps the shape. -/
theorem Shaped.readLink (h : reader.Shaped dialect) :
    (stateAfter reader.readLink).Shaped dialect where
  dialect_eq := by rw [dialect_readLink, h.dialect_eq]
  fields := by
    rw [fields_readLink]
    exact h.readFields.fields
  cursor := Cursor.linewise_holdsSingleLine.reader_readLink h.cursor

/-- The step of a session. -/
theorem Shaped.call (h : reader.Shaped dialect) (c : Call) : (reader.call c).2.Shaped dialect :=
  call_snd (P := Shaped dialect) h.readFields h.readLink c

/-- The run of a session. -/
theorem Shaped.transcript (h : reader.Shaped dialect) (calls : List Call) :
    (reader.transcript calls).2.Shaped dialect := by
  induction calls generalizing reader with
  | nil => exact h
  | cons c calls ih => exact ih (h.call c)

/-- The fields that are read are those that the reader knows then. -/
theorem fields_of_readFields_eq_ok {reader' : Reader} {known : List MetaField}
    (h : reader.readFields = .ok known reader') : reader'.fields = known := by
  rw [readFields] at h
  split at h
  · split at h
    · cases h
      rfl
    · cases h
  · cases h
    rfl

/-- The fields that a call gives are those that the reader has from then on. -/
theorem fields_of_call_eq_fields {c : Call} {known : List MetaField}
    (h : (reader.call c).1 = .fields known) : (reader.call c).2.fields = known := by
  have hlink : (reader.call .link).1 ≠ .fields known := by
    rw [call]
    rcases reader.readLink with ⟨_ | link, reader₁⟩ | ⟨e, reader₁⟩ <;> exact Reply.noConfusion
  cases c with
  | fields =>
    rw [call] at h ⊢
    cases hread : reader.readFields with
    | ok known' reader' =>
      rw [hread] at h
      cases h
      exact fields_of_readFields_eq_ok hread
    | error e reader' =>
      rw [hread] at h
      cases h
  | link => exact absurd h hlink
  | item =>
    rw [call_item] at h
    exact absurd h hlink

/-- A link that is read has the right shape. -/
theorem Shaped.link_of_readLink (h : reader.Shaped dialect) {reader' : Reader} {link : Link}
    (hread : reader.readLink = .ok (some link) reader') : link.Shaped dialect := by
  have hcursor := cursor_readLink_of_eq_ok hread
  rw [h.dialect_eq] at hcursor
  exact Cursor.shaped_of_readLink h.readFields.cursor hcursor

/-- A call gives nothing but fields and links of the right shape. -/
theorem Shaped.reply (h : reader.Shaped dialect) (c : Call) : (reader.call c).1.Shaped dialect := by
  cases hreply : (reader.call c).1 with
  | fields known =>
    rw [← fields_of_call_eq_fields hreply]
    exact (h.call c).fields
  | link link => exact h.link_of_readLink (readLink_of_call_eq_link hreply)
  | nothing | failed e => trivial

/-- Reading to the end. -/
theorem Shaped.readLinks (h : reader.Shaped dialect) :
    ∀ link ∈ reader.readLinks.1, link.Shaped dialect := by
  fun_induction Reader.readLinks reader with
  | case1 => exact List.forall_mem_nil _
  | case2 => exact List.forall_mem_nil _
  | case3 reader link reader₁ hread links failure reader₂ hrest ih =>
    have hnext := h.readLink
    rw [hread] at hnext
    have hlinks := ih hnext
    rw [hrest] at hlinks
    exact List.forall_mem_cons.mpr ⟨h.link_of_readLink hread, hlinks⟩

/-- Reading to the end keeps the shape of all that is known. -/
theorem Shaped.reader_readLinks (h : reader.Shaped dialect) :
    reader.readLinks.2.2.Shaped dialect := by
  fun_induction Reader.readLinks reader with
  | case1 reader reader₁ hread =>
    have hnext := h.readLink
    rwa [hread] at hnext
  | case2 reader e reader₁ hread =>
    have hnext := h.readLink
    rwa [hread] at hnext
  | case3 reader link reader₁ hread links failure reader₂ hrest ih =>
    have hnext := h.readLink
    rw [hread] at hnext
    have hlast := ih hnext
    rwa [hrest] at hlast

end Reader

/-- All links of a source have the shape of their dialect. -/
theorem shaped_of_mem_decode {dialect : Dialect} {source : Source} {link : Link}
    (h : link ∈ (decode dialect source).links) : link.Shaped dialect :=
  (Reader.shaped_ofSource dialect source).readLinks link h

/-- All fields of a source have the shape of fields. -/
theorem shaped_of_mem_fields {dialect : Dialect} {source : Source} {field : MetaField}
    (h : field ∈ (decode dialect source).fields) : field.Shaped :=
  (Reader.shaped_ofSource dialect source).reader_readLinks.fields field h

/-- No dialect lets a newline into a source. -/
theorem Link.Shaped.newline_not_mem_source {dialect : Dialect} {link : Link}
    (h : link.Shaped dialect) : '\n' ∉ link.source := by
  cases dialect with
  | rfc => exact (h link.source List.mem_cons_self).2
  | variableWidth => exact h.2.2.1
  | fixedWidth width => exact h.2.2

/-! ## The lines of a target -/

/-- The lines of a target, behind the first one, are the further lines of its record without their
line breaks, so they have a bar in place only where these have one. -/
theorem RecordLines.Fits.not_barAt_target {width : Nat} {record : RecordLines}
    (h : record.Fits width) (hsingle : ∀ line ∈ record.lines, SingleLine line)
    (hclosed : record.lines.Pairwise fun line _ => line.getLast? = some '\n')
    (hne : ∀ line ∈ record.more, line ≠ []) :
    ∀ line ∈ (record.link.target.splitOn '\n').tail, ¬BarAt width line := by
  have hcut := forall₂_splitOn_dropLineBreak hsingle hclosed hne
  have hfront : '\n' ∉ record.source ++ ['|'] := by
    have hfirst := (hsingle record.first List.mem_cons_self).of_append_cons.1
    simpa using hfirst
  have htext : dropLineBreak (record.first :: record.more).flatten =
      (record.source ++ ['|']) ++ record.link.target := by
    rw [List.flatten_cons, first, List.append_assoc, List.cons_append,
      dropLineBreak_append_cons (by decide) (by decide)]
    simp [link]
  rw [htext, splitOn_append_of_not_mem hfront] at hcut
  obtain ⟨piece, pieces, hsplit⟩ := exists_splitOn_eq_cons record.link.target
  rw [hsplit, List.modifyHead_cons, List.forall₂_cons] at hcut
  rw [hsplit, List.tail_cons]
  intro line hmem
  obtain ⟨i, hi, rfl⟩ := List.getElem_of_mem hmem
  have hi' : i < record.more.length := hcut.2.length_eq ▸ hi
  obtain ⟨close, hline⟩ := hcut.2.get hi hi'
  have hclose : '|' ∉ close.elim [] LineBreak.text := by
    rcases close with _ | _ | _ <;> decide
  have hbar := h.more _ (List.getElem_mem hi')
  rw [List.get_eq_getElem, List.get_eq_getElem] at hline
  rwa [hline, barAt_append hclose] at hbar

/-- Over chunks, no line of a target but its first could start a record. -/
theorem Cursor.StandsAt.not_barAt_of_readLink {cursor cursor' : Cursor} {count width : Nat}
    {dump : Bytes} {link : Link} (h : cursor.StandsAt count ((dumpLines dump).drop count))
    (hread : cursor.readLink (.fixedWidth width) = .ok (some link) cursor') :
    ∀ line ∈ (link.target.splitOn '\n').tail, ¬BarAt width line := by
  obtain ⟨record, front, back, hlines, hfront, hfits, rfl, -, -⟩ := h.record_of_readLink hread
  have hsub : front.Sublist (physicalLines (dropMark dump)) := by
    apply List.Sublist.trans (List.sublist_append_left front back)
    rw [← hlines]
    exact List.drop_sublist count _
  have hsingle : ∀ line ∈ record.lines, SingleLine line := by
    rw [← hfront, List.forall_mem_map]
    intro raw hraw
    exact singleLine_decode (newline_not_mem_dropLast_of_mem_physicalLines (hsub.subset hraw))
  have hclosed : record.lines.Pairwise fun line _ => line.getLast? = some '\n' := by
    rw [← hfront, List.pairwise_map]
    refine ((pairwise_physicalLines _).sublist hsub).imp fun hlast => ?_
    exact (Utf8.getLast?_decode_eq_some_iff (a := '\n') (by decide)).mpr hlast
  have hne : ∀ line ∈ record.lines, line ≠ [] := by
    rw [← hfront, List.forall_mem_map]
    intro raw hraw
    rw [Ne, Utf8.decode_eq_nil_iff]
    exact ne_nil_of_mem_physicalLines (hsub.subset hraw)
  exact hfits.not_barAt_target hsingle hclosed (List.forall_mem_cons.mp hne).2

/-- Whatever the source does and whatever is called, all that a reader gives has its shape, and so
does all that a stream decoder gives. The name of a field is made of capital letters, and its value
is on one line and starts with no blank. Where bars stand between fields there is no bar and no
newline in any of them. Where the first bar ends the source there is no note, no bar in the source,
and no newline in either part. A source of fixed width has that width in bytes, no newline, and no
note beside it. If the source of the bytes is chunks alone, no line of such a target but its first
has a bar where a record would start. -/
theorem decoded_shape (dialect : Dialect) (source : Source) (calls : List Call) (entry : Entry)
    (hmem : entry ∈ ((Reader.ofSource dialect source).transcript calls).1 ∨
      entry ∈ ((StreamDecoder.ofSource dialect source).transcript calls).1) :
    entry.reply.Shaped dialect ∧
      (source.AllChunks → ∀ width link, dialect = .fixedWidth width → entry.reply = .link link →
        ∀ line ∈ (link.target.splitOn '\n').tail, ¬BarAt width line) := by
  have hentry : entry ∈ ((Reader.ofSource dialect source).transcript calls).1 := by
    rw [StreamDecoder.transcript_ofSource] at hmem
    exact hmem.elim id id
  obtain ⟨before, c, hreply⟩ := Reader.exists_of_mem_transcript hentry
  rw [hreply]
  constructor
  · exact ((Reader.shaped_ofSource dialect source).transcript before).reply c
  · rintro hchunks width link rfl hlink
    have hplaced : ((Reader.ofSource (.fixedWidth width) source).transcript before).2.Placed
        (.fixedWidth width) source := Reader.Placed.fresh.transcript hchunks before
    obtain ⟨cursor, cursor', fields, count, -, hread, hstands⟩ :=
      hplaced.exists_readLink_eq hchunks hlink
    exact hstands.not_barAt_of_readLink hread

/-- A field with two blanks in front of its value, and a record of two lines, the second one with a
bar one byte too far to the right. -/
theorem decoded_shape_of_long_record :
    MetaField.Shaped ⟨['A'], ['b']⟩ ∧
      Link.Shaped (.fixedWidth 1) ⟨['a'], ['x', '\n', 'y', 'y', '|'], []⟩ ∧
      ¬BarAt 1 ['y', 'y', '|'] := by
  let source : Source := [.chunk 0x23 [0x41, 0x3A, 0x20, 0x09, 0x62, 0x0A],
    .chunk 0x0A [0x61, 0x7C, 0x78, 0x0A, 0x79], .chunk 0x79 [0x7C]]
  have hchunks : source.AllChunks := by simp [source]
  have hfields := decoded_shape (.fixedWidth 1) source [.fields, .item]
    ⟨.fields [⟨['A'], ['b']⟩], 3⟩ (.inl (by decide +kernel))
  have hlink := decoded_shape (.fixedWidth 1) source [.fields, .item]
    ⟨.link ⟨['a'], ['x', '\n', 'y', 'y', '|'], []⟩, 4⟩ (.inr (by decide +kernel))
  exact ⟨hfields.1 _ List.mem_cons_self, hlink.1,
    hlink.2 hchunks 1 _ rfl rfl _ (List.mem_singleton_self _)⟩

end LinkDump
