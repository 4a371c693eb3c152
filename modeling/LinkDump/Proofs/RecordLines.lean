import LinkDump.Proofs.Ascii
import LinkDump.Record.FixedWidth

/-! # Lines of records
With sources of a fixed width, lines fall into records: each starts at a line with its bar in place
and goes on over the lines up to the next such line. `RecordLines` is a record as its lines, and
`RecordLines.link` the link that they spell. -/

namespace LinkDump

/-- Whether a line has a bar as its byte at offset `width`. -/
def BarAt (width : Nat) (line : Text) : Prop := (Utf8.encode line)[width]? = some 0x7C

instance (width : Nat) (line : Text) : Decidable (BarAt width line) :=
  inferInstanceAs (Decidable (_ = _))

/-- The bar that is found by walking the characters is the byte at that offset. -/
theorem isRecordStart_iff_barAt {width : Nat} {line : Text} :
    isRecordStart width line = true ↔ BarAt width line := by
  rw [isRecordStart, BarAt]
  induction line generalizing width with
  | nil => simp [splitBarAt]
  | cons c line ih =>
    have hbar (i : Nat) : (String.utf8EncodeChar c)[i]? = some (0x7C : UInt8) ↔ i = 0 ∧ c = '|' :=
      Utf8.getElem?_utf8EncodeChar_eq_some_iff (a := '|') (by decide)
    rw [Utf8.encode_cons, List.getElem?_append, String.length_utf8EncodeChar]
    cases width with
    | zero =>
      rw [if_pos c.utf8Size_pos, hbar, splitBarAt]
      split <;> simp [*]
    | succ offset =>
      rw [splitBarAt]
      split
      next hle => rw [Option.isSome_map, ih, if_neg (Nat.not_lt.mpr hle)]
      next hgt =>
        rw [if_pos (Nat.lt_of_not_le hgt), hbar]
        simp

/-- A line without its bar in place is not cut. -/
theorem splitBarAt_eq_none {width : Nat} {line : Text} (h : ¬BarAt width line) :
    splitBarAt width line = none := by
  rw [← isRecordStart_iff_barAt, isRecordStart] at h
  simpa using h

/-- A bar at a byte offset cuts the line between characters. -/
theorem barAt_iff_exists {width : Nat} {line : Text} :
    BarAt width line ↔ ∃ source text, line = source ++ '|' :: text ∧ Utf8.size source = width := by
  rw [← isRecordStart_iff_barAt, isRecordStart, Option.isSome_iff_exists]
  constructor
  · rintro ⟨⟨source, text⟩, hsplit⟩
    exact ⟨source, text, eq_of_splitBarAt hsplit⟩
  · rintro ⟨source, text, rfl, rfl⟩
    exact ⟨(source, text), splitBarAt_size source text⟩

/-- Text without a bar at the end of a line puts no bar in place, and moves none. -/
theorem barAt_append {back : Text} (h : '|' ∉ back) (width : Nat) (front : Text) :
    BarAt width (front ++ back) ↔ BarAt width front := by
  rw [barAt_iff_exists, barAt_iff_exists]
  constructor
  · rintro ⟨source, text, heq, hsize⟩
    rcases List.append_eq_append_iff.mp heq with ⟨rest, rfl, hback⟩ | ⟨rest, rfl, hrest⟩
    · refine absurd ?_ h
      rw [hback]
      simp
    · cases rest with
      | nil =>
        refine absurd ?_ h
        rw [List.nil_append] at hrest
        rw [← hrest]
        exact List.mem_cons_self
      | cons c rest =>
        obtain ⟨rfl, -⟩ := List.cons.inj hrest
        exact ⟨source, rest, rfl, hsize⟩
  · rintro ⟨source, text, rfl, hsize⟩
    exact ⟨source, text ++ back, by simp, hsize⟩

/-- The lines of one record: the first, cut at its bar, and those that continue it, each with its
line break. -/
structure RecordLines where
  source : Text
  text : Text
  more : List Text

namespace RecordLines

/-- The line that the record starts with. -/
def first (record : RecordLines) : Text := record.source ++ '|' :: record.text

/-- All lines of the record. -/
def lines (record : RecordLines) : List Text := record.first :: record.more

/-- What the record says: the target runs over all lines, and loses only its last line break. -/
def link (record : RecordLines) : Link :=
  { source := record.source, target := dropLineBreak (record.text ++ record.more.flatten) }

/-- The source has exactly `width` bytes, and no line but the first has a bar behind as many. -/
structure Fits (width : Nat) (record : RecordLines) : Prop where
  size_eq : Utf8.size record.source = width
  more : ∀ line ∈ record.more, ¬BarAt width line

instance (width : Nat) (record : RecordLines) : Decidable (record.Fits width) :=
  decidable_of_iff (Utf8.size record.source = width ∧ ∀ line ∈ record.more, ¬BarAt width line)
    ⟨fun h => ⟨h.1, h.2⟩, fun h => ⟨h.1, h.2⟩⟩

/-- The first line of a record that fits has its bar in place. -/
theorem Fits.barAt_first {width : Nat} {record : RecordLines} (h : record.Fits width) :
    BarAt width record.first :=
  barAt_iff_exists.mpr ⟨record.source, record.text, rfl, h.size_eq⟩

/-- Lines cut into records: the lines in front that continue what came before, and the records. -/
def cut (width : Nat) : List Text → List Text × List RecordLines
  | [] => ([], [])
  | line :: lines =>
    match splitBarAt width line with
    | some (source, text) => ([], ⟨source, text, (cut width lines).1⟩ :: (cut width lines).2)
    | none => (line :: (cut width lines).1, (cut width lines).2)

/-- A line with its bar in place starts a record, which goes on up to the next such line. -/
theorem cut_cons_bar {width : Nat} {source : Text} (h : Utf8.size source = width) (text : Text)
    (lines : List Text) :
    cut width ((source ++ '|' :: text) :: lines) =
      ([], ⟨source, text, (cut width lines).1⟩ :: (cut width lines).2) := by
  rw [cut, ← h, splitBarAt_size]

/-- Any other line goes on with what came before. -/
theorem cut_cons_of_not_barAt {width : Nat} {line : Text} (h : ¬BarAt width line)
    (lines : List Text) :
    cut width (line :: lines) = (line :: (cut width lines).1, (cut width lines).2) := by
  rw [cut, splitBarAt_eq_none h]

/-- Cutting loses no line, and every record fits. -/
theorem cut_spec (width : Nat) (lines : List Text) :
    (cut width lines).1 ++ (cut width lines).2.flatMap RecordLines.lines = lines ∧
      (∀ line ∈ (cut width lines).1, ¬BarAt width line) ∧
      ∀ record ∈ (cut width lines).2, record.Fits width := by
  induction lines with
  | nil => exact ⟨rfl, List.forall_mem_nil _, List.forall_mem_nil _⟩
  | cons line lines ih =>
    obtain ⟨hlines, hfront, hrecords⟩ := ih
    by_cases hline : BarAt width line
    · obtain ⟨source, text, rfl, hsize⟩ := barAt_iff_exists.mp hline
      rw [cut_cons_bar hsize]
      refine ⟨?_, List.forall_mem_nil _, ?_⟩
      · rw [List.nil_append, List.flatMap_cons, RecordLines.lines, first, List.cons_append, hlines]
      · exact List.forall_mem_cons.mpr ⟨⟨hsize, hfront⟩, hrecords⟩
    · rw [cut_cons_of_not_barAt hline]
      refine ⟨?_, ?_, hrecords⟩
      · rw [List.cons_append, hlines]
      · exact List.forall_mem_cons.mpr ⟨hline, hfront⟩

/-- Lines without a bar in place stay in front of all records. -/
theorem cut_append_of_not_barAt {width : Nat} {front : List Text}
    (h : ∀ line ∈ front, ¬BarAt width line) (back : List Text) :
    cut width (front ++ back) = (front ++ (cut width back).1, (cut width back).2) := by
  induction front with
  | nil => rfl
  | cons line front ih =>
    rw [List.forall_mem_cons] at h
    rw [List.cons_append, cut_cons_of_not_barAt h.1, ih h.2]
    rfl

/-- Records are found again in their lines. -/
theorem cut_flatMap {width : Nat} {records : List RecordLines}
    (h : ∀ record ∈ records, record.Fits width) :
    cut width (records.flatMap RecordLines.lines) = ([], records) := by
  induction records with
  | nil => rfl
  | cons record records ih =>
    rw [List.forall_mem_cons] at h
    rw [List.flatMap_cons, RecordLines.lines, first, List.cons_append, cut_cons_bar h.1.size_eq,
      cut_append_of_not_barAt h.1.more, ih h.2, List.append_nil]

/-- Where the first line starts a record, there is no line in front of the records. -/
theorem cut_fst_eq_nil {width : Nat} {line : Text} (h : BarAt width line) (lines : List Text) :
    (cut width (line :: lines)).1 = [] := by
  obtain ⟨source, text, rfl, hsize⟩ := barAt_iff_exists.mp h
  rw [cut_cons_bar hsize]

/-- Lines that begin with the start of a record are records from there on. -/
theorem exists_records_of_barAt {width : Nat} {line : Text} (h : BarAt width line)
    (lines : List Text) :
    ∃ records : List RecordLines, records.flatMap RecordLines.lines = line :: lines ∧
      ∀ record ∈ records, record.Fits width := by
  obtain ⟨hlines, -, hrecords⟩ := cut_spec width (line :: lines)
  rw [cut_fst_eq_nil h, List.nil_append] at hlines
  exact ⟨(cut width (line :: lines)).2, hlines, hrecords⟩

/-- Each record has one line with its bar in place, the first. -/
theorem filter_barAt_flatMap {width : Nat} {records : List RecordLines}
    (h : ∀ record ∈ records, record.Fits width) :
    (records.flatMap RecordLines.lines).filter (BarAt width ·) = records.map first := by
  induction records with
  | nil => rfl
  | cons record records ih =>
    rw [List.forall_mem_cons] at h
    have hmore : record.more.filter (BarAt width ·) = [] := by
      rw [List.filter_eq_nil_iff]
      intro line hmem
      simpa using h.1.more line hmem
    rw [List.flatMap_cons, List.filter_append, ih h.2, RecordLines.lines,
      List.filter_cons_of_pos (by simpa using h.1.barAt_first), hmore]
    rfl

end RecordLines

end LinkDump
