import LinkDump.Proofs.RecordRun

/-! # Records of any lines
A record may be started with any text and be offered any texts, in whatever order. It takes those
that have no bar in place and hands the others back, and the two together are all that it was given:
the link at the end says the first text and all that were taken, up to the bar behind the source and
one line break. -/

namespace LinkDump

namespace FixedRecord

/-- Offer texts to a record one after the other, also behind one that was handed back: what is
handed back for each of them, and the record after them. -/
def offer (record : FixedRecord) : List Text → List (Option Text) × FixedRecord
  | [] => ([], record)
  | line :: lines =>
    let (answer, record) := record.absorb line
    let (answers, record) := record.offer lines
    (answer :: answers, record)

/-- All that a record takes of some texts, put together. -/
def taken (width : Nat) (lines : List Text) : Text := (lines.filter (¬BarAt width ·)).flatten

/-! ## Starting -/

/-- A line starts a record exactly if it has its bar in place. -/
theorem exists_start_iff {width : Nat} {raw : Text} :
    (∃ record, start width raw = .ok record) ↔ BarAt width raw := by
  rw [barAt_iff_exists]
  constructor
  · rintro ⟨record, hstart⟩
    obtain ⟨hraw, hsize, -⟩ := start_eq_ok_iff.mp hstart
    exact ⟨record.source, record.target, hraw, hsize⟩
  · rintro ⟨source, target, hraw, hsize⟩
    exact ⟨⟨width, source, target⟩, start_eq_ok_iff.mpr ⟨hraw, hsize, rfl⟩⟩

/-- Where the first of two texts ends, both together may be cut between characters. -/
theorem isValid_size (front back : Text) :
    String.Pos.Raw.IsValid (String.ofList (front ++ back)) ⟨Utf8.size front⟩ := by
  have hsize : (String.ofList front).utf8ByteSize = Utf8.size front := by
    rw [← String.size_toByteArray, String.toByteArray_ofList, List.utf8Encode,
      List.size_toByteArray]
    rfl
  rw [String.Pos.Raw.isValid_iff_exists_append]
  refine ⟨String.ofList front, String.ofList back, String.ofList_append, ?_⟩
  rw [← hsize]
  rfl

/-- A record that is started is cut out in front of the bar and behind it. -/
theorem isValid_of_start {width : Nat} {raw : Text} {record : FixedRecord}
    (h : start width raw = .ok record) :
    String.Pos.Raw.IsValid (String.ofList raw) ⟨width⟩ ∧
      String.Pos.Raw.IsValid (String.ofList raw) ⟨width + 1⟩ := by
  obtain ⟨hraw, hsize, -⟩ := start_eq_ok_iff.mp h
  have hbehind : Utf8.size (record.source ++ ['|']) = width + 1 := by
    rw [Utf8.size_append, hsize]
    rfl
  constructor
  · rw [hraw, ← hsize]
    exact isValid_size record.source ('|' :: record.target)
  · rw [hraw, ← hbehind, List.append_cons]
    exact isValid_size (record.source ++ ['|']) record.target

/-! ## Offering -/

/-- What was handed back leaves no trace, and what was taken stands in the target. -/
theorem offer_eq (record : FixedRecord) (lines : List Text) :
    record.offer lines =
      (lines.map fun line => if BarAt record.width line then some line else none,
        { record with target := record.target ++ taken record.width lines }) := by
  -- A text that is taken changes the target, so the record is generalized; its width stays.
  induction lines generalizing record with
  | nil => simp [offer, taken]
  | cons line lines ih =>
    by_cases hbar : BarAt record.width line
    · rw [offer, absorb_of_barAt hbar]
      simp [ih, taken, hbar]
    · rw [offer, absorb_of_not_barAt hbar]
      simp [ih, taken, hbar]

/-- A record of any text and any offers. It is started exactly if the byte of the text at offset
`width` is a bar; otherwise the text is refused without its line break, for the place of its bar if
it has one, and for want of a bar if not. The text is cut between characters. Whatever is offered
then, each text with a bar in place is handed back and leaves the record as it was, and each other
text is taken. The link at the end has no note, a source of `width` bytes, and the text behind the
bar with all that was taken as its target, up to one line break; and nothing that was given to the
record is lost in front of that line break. -/
theorem record_of_offers (width : Nat) (raw : Text) :
    ((∃ record, start width raw = .ok record) ↔ BarAt width raw) ∧
    (¬BarAt width raw → start width raw = .error
      (if '|' ∈ raw then .barNotAtWidth width (dropLineBreak raw)
        else .missingBar (dropLineBreak raw))) ∧
    ∀ record, start width raw = .ok record →
      raw = record.source ++ '|' :: record.target ∧ Utf8.size record.source = width ∧
      String.Pos.Raw.IsValid (String.ofList raw) ⟨width⟩ ∧
      String.Pos.Raw.IsValid (String.ofList raw) ⟨width + 1⟩ ∧
      ∀ lines : List Text,
        (record.offer lines).1 =
          lines.map (fun line => if BarAt width line then some line else none) ∧
        (∀ line, BarAt width line →
          (record.offer lines).2.absorb line = (some line, (record.offer lines).2)) ∧
        (record.offer lines).2.finish =
          ⟨record.source, dropLineBreak (record.target ++ taken width lines), []⟩ ∧
        record.source ++ '|' :: (record.target ++ taken width lines) =
          raw ++ taken width lines := by
  refine ⟨exists_start_iff, start_of_not_barAt, ?_⟩
  intro record hstart
  obtain ⟨hraw, hsize, rfl⟩ := start_eq_ok_iff.mp hstart
  obtain ⟨hbefore, hbehind⟩ := isValid_of_start hstart
  refine ⟨hraw, hsize, hbefore, hbehind, ?_⟩
  intro lines
  rw [record.offer_eq lines]
  refine ⟨rfl, fun line hbar => absorb_of_barAt hbar, rfl, ?_⟩
  -- The bar behind the source was given with the first text.
  conv_rhs => rw [hraw]
  rw [List.append_assoc, List.cons_append]

/-- A source of two characters in three bytes. A text whose bar is in place is handed back between
two that are taken, one of them with a bar elsewhere, and the carriage return and the newline of two
texts are dropped as one line break. A bar inside a character is out of place. -/
theorem record_of_offers_across_texts :
    (offer ⟨3, ['é', 'a'], ['x']⟩ [['\n', '|', '\r'], ['a', 'b', 'c', '|'], ['\n']]).2.finish =
      ⟨['é', 'a'], ['x', '\n', '|'], []⟩ ∧
    start 1 ['é', '|', '\n'] = .error (.barNotAtWidth 1 ['é', '|']) := by
  have hrecord := (record_of_offers 3 ['é', 'a', '|', 'x']).2.2 ⟨3, ['é', 'a'], ['x']⟩ (by decide)
  obtain ⟨-, -, -, -, hoffers⟩ := hrecord
  obtain ⟨-, -, hfinish, -⟩ := hoffers [['\n', '|', '\r'], ['a', 'b', 'c', '|'], ['\n']]
  exact ⟨hfinish, (record_of_offers 1 ['é', '|', '\n']).2.1 (by decide)⟩

end FixedRecord

end LinkDump
