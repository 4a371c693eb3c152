import LinkDump.Proofs.HeaderScan
import LinkDump.Proofs.ReadingOn

/-! # One link on each line
Where every link takes one line, decoding is parsing line by line: behind the header each line gives
its link, until the lines end or one of them is refused. The step reads one line; the run over any
number of accepted lines is an induction on the links. -/

namespace LinkDump

/-- The rule that makes a link of a single line, with its line break, in the dialects that have one.
-/
def Dialect.ofLine : Dialect → Option (Text → Except LineError Link)
  | .rfc => some fun raw => Link.ofBars (dropLineBreak raw)
  | .variableWidth => some Link.ofFirstBar
  | .fixedWidth _ => none

namespace Cursor

variable {cursor : Cursor} {count : Nat} {line : Bytes} {lines : List Bytes} {dialect : Dialect}
  {parse : Text → Except LineError Link}

/-- A link is what the next line is parsed to, and takes that line alone. -/
theorem StandsAt.readLink_line (h : cursor.StandsAt count (line :: lines))
    (hparse : dialect.ofLine = some parse) :
    ∃ cursor' : Cursor, cursor'.StandsAt (count + 1) lines ∧ cursor'.line = count + 1 ∧
      cursor.readLink dialect = match parse (Utf8.decode line) with
        | .ok link => .ok (some link) cursor'
        | .error e => .error e cursor' := by
  obtain ⟨source, hread, hstands⟩ := h.nextRawLine_cons
  refine ⟨_, hstands, rfl, ?_⟩
  cases dialect with
  | rfc =>
    obtain rfl := Option.some.inj hparse
    rw [readLink, readBars, nextLine, hread]
    rfl
  | variableWidth =>
    obtain rfl := Option.some.inj hparse
    rw [readLink, readFirstBar, hread]
    rfl
  | fixedWidth width => cases hparse

/-- At the end of the lines there is no link in any dialect. -/
theorem StandsAt.readLink_nil (h : cursor.StandsAt count []) (dialect : Dialect) :
    cursor.readLink dialect = .ok none cursor := by
  have hread := h.nextRawLine_nil.1
  cases dialect with
  | rfc => simp only [readLink, readBars, nextLine, hread, Option.map_none, parseLine]
  | variableWidth => simp only [readLink, readFirstBar, hread, parseLine]
  | fixedWidth width => simp only [readLink, readFixed, hread]

end Cursor

namespace Reader

variable {cursor : Cursor} {count : Nat} {dialect : Dialect} {fields : List MetaField}
  {parse : Text → Except LineError Link}

/-- A run of accepted lines gives their links, in order, before whatever follows. -/
theorem readLinks_of_accepted {front back : List Bytes} (h : cursor.StandsAt count (front ++ back))
    (hparse : dialect.ofLine = some parse) {links : List Link}
    (hlinks : (front.map Utf8.decode).map parse = links.map .ok) :
    ∃ cursor' : Cursor, cursor'.StandsAt (count + front.length) back ∧
      readLinks ⟨cursor, dialect, fields, .links⟩ =
        (links ++ (readLinks ⟨cursor', dialect, fields, .links⟩).1,
          (readLinks ⟨cursor', dialect, fields, .links⟩).2) := by
  induction links generalizing cursor count front with
  | nil =>
    obtain rfl : front = [] := by simpa using hlinks
    exact ⟨cursor, h, rfl⟩
  | cons link links ih =>
    cases front with
    | nil => cases hlinks
    | cons line front =>
      -- The first line gives the first link; the others are read from the cursor behind it.
      rw [List.map_cons, List.map_cons, List.map_cons, List.cons.injEq] at hlinks
      obtain ⟨cursor₁, hstands₁, -, hread⟩ := Cursor.StandsAt.readLink_line h hparse
      rw [hlinks.1] at hread
      obtain ⟨cursor₂, hstands₂, hrun⟩ := ih hstands₁ hlinks.2
      refine ⟨cursor₂, ?_, ?_⟩
      · rwa [add_length_cons]
      · rw [readLinks_of_link hread, hrun, List.cons_append]

/-- Lines that are all accepted are read to their end. -/
theorem finish_of_accepted {lines : List Bytes} (h : cursor.StandsAt count lines)
    (hparse : dialect.ofLine = some parse) {links : List Link}
    (hlinks : (lines.map Utf8.decode).map parse = links.map .ok) :
    finish ⟨cursor, dialect, fields, .links⟩ = ⟨fields, links, none, count + lines.length⟩ := by
  rw [← List.append_nil lines] at h
  obtain ⟨cursor', hend, hrun⟩ := readLinks_of_accepted h hparse hlinks
  rw [finish, hrun, readLinks_of_end (hend.readLink_nil dialect)]
  simp only [List.append_nil, Reader.line, hend.nextRawLine_nil.2]

/-- Reading stops at the first line that is refused. -/
theorem finish_of_refused {front back : List Bytes} {line : Bytes}
    (h : cursor.StandsAt count (front ++ line :: back)) (hparse : dialect.ofLine = some parse)
    {links : List Link} (hlinks : (front.map Utf8.decode).map parse = links.map .ok)
    {e : LineError} (hrefused : parse (Utf8.decode line) = .error e) :
    finish ⟨cursor, dialect, fields, .links⟩ =
      ⟨fields, links, some ⟨count + front.length + 1, e⟩, count + front.length + 1⟩ := by
  obtain ⟨cursor₁, hstands₁, hrun⟩ := readLinks_of_accepted h hparse hlinks
  obtain ⟨cursor₂, -, hline, hread⟩ := hstands₁.readLink_line hparse
  rw [hrefused] at hread
  rw [finish, hrun, readLinks_of_error hread]
  simp only [List.append_nil, Reader.line, hline]

end Reader

/-- The meaning of a dump with one link on each line, for a dump that arrives in chunks of any sizes
and whose header is accepted: the lines behind the header are parsed in order. If all are accepted,
decoding reads every line and gives exactly their links. If not, it gives the links of the lines
before the first one that is refused, and fails with that line's error and number. -/
theorem decode_of_lines {source : Source} (hchunks : source.AllChunks) {dialect : Dialect}
    {parse : Text → Except LineError Link} (hparse : dialect.ofLine = some parse)
    {fields : List MetaField} {reader : Reader}
    (hscan : (Reader.ofSource dialect source).readFields = .ok fields reader) :
    reader.LinksFrom dialect (linkTexts source.bytes) ∧
    (∀ links, (linkTexts source.bytes).map parse = links.map .ok →
      decode dialect source = ⟨fields, links, none, (dumpTexts source.bytes).length⟩) ∧
    (∀ before line after links e, linkTexts source.bytes = before ++ line :: after →
      before.map parse = links.map .ok → parse line = .error e →
      decode dialect source =
        ⟨fields, links, some ⟨headerLength (dumpTexts source.bytes) + before.length + 1, e⟩,
          headerLength (dumpTexts source.bytes) + before.length + 1⟩) := by
  obtain ⟨cursor, lines, rfl, hstands, hdecoded⟩ :=
    Reader.standsAt_of_readFields_eq_ok hchunks hscan
  rw [decode_of_readFields_eq_ok hscan, ← headerLength_add_length_linkTexts, ← hdecoded,
    List.length_map]
  refine ⟨⟨rfl, rfl, hstands.yields⟩, ?_, ?_⟩
  · intro links hlinks
    exact Reader.finish_of_accepted hstands hparse hlinks
  · intro before line after links e hlines hlinks hrefused
    obtain ⟨front, back, rfl, rfl, hback⟩ := List.map_eq_append_iff.mp hlines
    obtain ⟨line', lines', rfl, rfl, -⟩ := List.map_eq_cons_iff.mp hback
    rw [List.length_map]
    exact Reader.finish_of_refused hstands hparse hlinks hrefused

/-- Behind `#A: 1`, the lines `a|x`, `b` and `c|y`, of which the second has no bar. -/
theorem decode_up_to_barless_line :
    decode .variableWidth
        [.chunk 0x23 [0x41, 0x3A, 0x31, 0x0A, 0x61], .chunk 0x7C [0x78, 0x0A],
          .chunk 0x62 [0x0A, 0x63, 0x7C, 0x79]] =
      ⟨[⟨['A'], ['1']⟩], [⟨['a'], ['x'], []⟩], some ⟨3, .missingBar ['b']⟩, 3⟩ := by
  have hchunks : Source.AllChunks
      [.chunk 0x23 [0x41, 0x3A, 0x31, 0x0A, 0x61], .chunk 0x7C [0x78, 0x0A],
        .chunk 0x62 [0x0A, 0x63, 0x7C, 0x79]] := by
    simp
  obtain ⟨cursor, lines, hscan, -⟩ :=
    Reader.readFields_of_accepted .variableWidth hchunks [⟨['A'], ['1']⟩] (by decide)
  exact (decode_of_lines hchunks rfl hscan).2.2 [['a', '|', 'x', '\n']] ['b', '\n']
    [['c', '|', 'y']] [⟨['a'], ['x'], []⟩] (.missingBar ['b']) (by decide) (by decide) (by decide)

end LinkDump
