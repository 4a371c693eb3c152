import LinkDump.Proofs.DumpMeaning
import LinkDump.Proofs.LineBreaks
import LinkDump.Proofs.Runs
import Mathlib.Data.List.Forall2

/-! # Lines up to their line breaks
What a line says does not depend on how it is closed: whether it is a meta line or blank, which
field it is and which link, and what is quoted of it in an error, are the same for any two lines
with the same content. So lines with the same contents have the same header, and the links of two
dumps have to be compared only where a target runs over several lines. -/

namespace LinkDump

/-- Two lines that differ in their line breaks at most. -/
def SameContent (line line' : Text) : Prop := dropLineBreak line = dropLineBreak line'

/-- Lines with the same contents, one for one. -/
abbrev SameContents (lines lines' : List Text) : Prop := List.Forall₂ SameContent lines lines'

/-! ## One line -/

namespace Link

/-- The first bar ends the source, and the rest of the line is the target. -/
theorem ofFirstBar_append_bar {source : Text} (h : '|' ∉ source) (text : Text) :
    ofFirstBar (source ++ '|' :: text) = .ok { source, target := dropLineBreak text } := by
  simp only [ofFirstBar, dropWhile_append_cons h, takeWhile_append_cons h]

/-- A line without a bar is refused, without its line break. -/
theorem ofFirstBar_of_not_mem {line : Text} (h : '|' ∉ line) :
    ofFirstBar line = .error (.missingBar (dropLineBreak line)) := by
  simp only [ofFirstBar, List.dropWhile_eq_nil_iff.mpr (forall_bne_of_not_mem h)]

/-- The first bar cuts a line where it cuts its content. -/
theorem ofFirstBar_eq (line : Text) :
    ofFirstBar line = match (dropLineBreak line).dropWhile (· != '|') with
      | [] => .error (.missingBar (dropLineBreak line))
      | _ :: target => .ok { source := (dropLineBreak line).takeWhile (· != '|'), target } := by
  by_cases hbar : '|' ∈ line
  · obtain ⟨source, text, rfl, hsource⟩ := List.eq_append_cons_of_mem hbar
    rw [ofFirstBar_append_bar hsource, dropLineBreak_append_cons (by decide) (by decide)]
    simp only [dropWhile_append_cons hsource, takeWhile_append_cons hsource]
  · have hnone : '|' ∉ dropLineBreak line := mt mem_of_mem_dropLineBreak hbar
    rw [ofFirstBar_of_not_mem hbar, List.dropWhile_eq_nil_iff.mpr (forall_bne_of_not_mem hnone)]

end Link

namespace SameContent

variable {line line' : Text} (h : SameContent line line')
include h

/-- Whether a line is a meta line does not depend on its line break. -/
theorem isMetaLine_eq : isMetaLine line = isMetaLine line' := by
  rw [← isMetaLine_dropLineBreak line, h, isMetaLine_dropLineBreak]

/-- Whether a line is blank does not depend on its line break. -/
theorem isBlankLine_eq : isBlankLine line = isBlankLine line' := congrArg isBlank h

/-- The field of a line does not depend on its line break. -/
theorem fieldOfLine_eq : fieldOfLine line = fieldOfLine line' := by
  rw [fieldOfLine, h, fieldOfLine]

/-- In a dialect with one link on each line it makes no difference how that line is closed. -/
theorem parse_eq {dialect : Dialect} {parse : Text → Except LineError Link}
    (hparse : dialect.ofLine = some parse) : parse line = parse line' := by
  cases dialect with
  | rfc =>
    obtain rfl := Option.some.inj hparse
    exact congrArg Link.ofBars h
  | variableWidth =>
    obtain rfl := Option.some.inj hparse
    rw [Link.ofFirstBar_eq line, h, ← Link.ofFirstBar_eq line']
  | fixedWidth width => cases hparse

/-- No line break has a bar. -/
theorem barAt_iff (width : Nat) : BarAt width line ↔ BarAt width line' := by
  have hcontent : ∀ text, BarAt width text ↔ BarAt width (dropLineBreak text) := by
    intro text
    obtain ⟨close, htext, -⟩ := exists_dropLineBreak_append text
    have hclose : '|' ∉ close.elim [] LineBreak.text := by
      rcases close with _ | ⟨_ | _⟩ <;> decide
    conv => lhs; rw [htext]
    exact barAt_append hclose width _
  rw [hcontent line, h, ← hcontent line']

/-- What is wrong with a line in front of all records does not depend on its line break. -/
theorem misplaced_eq (width : Nat) :
    LineError.misplaced width line = LineError.misplaced width line' := by
  have hcontent : ∀ text, '|' ∈ text ↔ '|' ∈ dropLineBreak text := by
    intro text
    exact ⟨fun hbar => mem_dropLineBreak hbar (by decide) (by decide), mem_of_mem_dropLineBreak⟩
  have hbar : '|' ∈ line ↔ '|' ∈ line' := by rw [hcontent line, h, ← hcontent line']
  simp only [LineError.misplaced, hbar, show dropLineBreak line = dropLineBreak line' from h]

end SameContent

/-! ## Many lines -/

namespace SameContents

variable {lines lines' : List Text} (h : SameContents lines lines')
include h

/-- What does not depend on line breaks is the same for all lines. -/
theorem map_eq {α : Type} {f : Text → α}
    (hf : ∀ line line', SameContent line line' → f line = f line') :
    lines.map f = lines'.map f := by
  induction h with
  | nil => rfl
  | cons hline _ ih => rw [List.map_cons, List.map_cons, hf _ _ hline, ih]

/-- Lines with the same contents start with equally many lines of one kind, with the same contents.
-/
theorem takeWhile {p : Text → Bool} (hp : ∀ line line', SameContent line line' → p line = p line') :
    SameContents (lines.takeWhile p) (lines'.takeWhile p) := by
  induction h with
  | nil => exact .nil
  | @cons line line' _ _ hline _ ih =>
    rw [List.takeWhile_cons, List.takeWhile_cons, hp _ _ hline]
    cases p line' with
    | true => exact .cons hline ih
    | false => exact .nil

/-- Lines with the same contents have meta lines with the same contents in front. -/
theorem metaLines : SameContents (metaLines lines) (metaLines lines') :=
  h.takeWhile fun _ _ => SameContent.isMetaLine_eq

/-- Lines with the same contents have the same contents from any line on. -/
theorem drop (count : Nat) : SameContents (lines.drop count) (lines'.drop count) :=
  List.forall₂_drop count h

/-- The header takes as many lines of the one as of the other. -/
theorem headerLength_eq : headerLength lines = headerLength lines' := by
  have hmeta := h.metaLines.length_eq
  have hblank := (takeWhile (h.drop (LinkDump.metaLines lines').length)
    fun _ _ => SameContent.isBlankLine_eq).length_eq
  -- The blank lines count only if there are meta lines.
  by_cases hnone : LinkDump.metaLines lines = []
  · rw [hnone] at hmeta
    rw [headerLength_of_nil hnone, headerLength_of_nil (List.length_eq_zero_iff.mp hmeta.symm)]
  · have hnone' : LinkDump.metaLines lines' ≠ [] := by
      intro hnil
      rw [hnil] at hmeta
      exact hnone (List.length_eq_zero_iff.mp hmeta)
    rw [headerLength_of_ne_nil hnone, headerLength_of_ne_nil hnone', hmeta, hblank]

/-- The meta lines give the same fields, and the same one is refused, if any is. -/
theorem map_fieldOfLine_eq :
    (LinkDump.metaLines lines).map fieldOfLine = (LinkDump.metaLines lines').map fieldOfLine :=
  h.metaLines.map_eq fun _ _ => SameContent.fieldOfLine_eq

/-- In a dialect without a fixed width, lines with the same contents have the same items. -/
theorem items_eq {dialect : Dialect} (hwidth : dialect.width? = none) :
    dialect.items lines = dialect.items lines' := by
  obtain ⟨parse, hparse⟩ : ∃ parse, dialect.ofLine = some parse := by
    cases dialect with
    | rfc => exact ⟨_, rfl⟩
    | variableWidth => exact ⟨_, rfl⟩
    | fixedWidth width => cases hwidth
  rw [Dialect.items_of_ofLine hparse, Dialect.items_of_ofLine hparse]
  exact h.map_eq fun _ _ hline => hline.parse_eq hparse

/-- Where sources have a fixed width, the same line is refused, if any is; otherwise the items are
as different as the links of the records. -/
theorem items_fixedWidth {width : Nat} {f : Link → Link}
    (hlinks : (RecordLines.cut width lines').2.map RecordLines.link =
      ((RecordLines.cut width lines).2.map RecordLines.link).map f) :
    (Dialect.fixedWidth width).items lines' =
      ((Dialect.fixedWidth width).items lines).map (Except.map f) := by
  cases h with
  | nil => rfl
  | @cons line line' lines lines' hline hlines =>
    by_cases hbar : BarAt width line
    · have hbar' : BarAt width line' := (hline.barAt_iff width).mp hbar
      rw [Dialect.items_of_cut (RecordLines.cut_fst_eq_nil hbar _),
        Dialect.items_of_cut (RecordLines.cut_fst_eq_nil hbar' _), hlinks]
      simp only [List.map_map]
      rfl
    · have hbar' : ¬BarAt width line' := mt (hline.barAt_iff width).mpr hbar
      rw [Dialect.items_of_not_barAt hbar, Dialect.items_of_not_barAt hbar',
        hline.misplaced_eq width]
      rfl

end SameContents

/-! ## Whole dumps -/

namespace Decoded

/-- The same outcome with other links in place of the links. -/
def mapLinks (f : Link → Link) (decoded : Decoded) : Decoded :=
  { decoded with links := decoded.links.map f }

/-- Links that do not change leave the decoded dump as it is. -/
@[simp] theorem mapLinks_id (decoded : Decoded) : decoded.mapLinks id = decoded := by
  rw [mapLinks, List.map_id]

/-- Lines with the same contents are decoded to the same but for their links, which are as different
as the items are behind any number of lines. -/
theorem ofLines_of_sameContents {lines lines' : List Text} (h : SameContents lines lines')
    {dialect : Dialect} {f : Link → Link} (hitems : ∀ count, dialect.items (lines'.drop count) =
      (dialect.items (lines.drop count)).map (Except.map f)) :
    ofLines dialect lines' = (ofLines dialect lines).mapLinks f := by
  rw [ofLines, ofLines, h.map_fieldOfLine_eq]
  -- The same meta line is refused, or none, and then the same number of lines is left.
  obtain ⟨fields, _ | e⟩ := cutAtError ((metaLines lines').map fieldOfLine)
  · simp only [ofLinkLines, ← h.headerLength_eq, hitems, cutAtError_map, List.length_drop,
      ← h.length_eq]
    obtain ⟨links, _ | e⟩ := cutAtError (dialect.items (lines.drop (headerLength lines)))
    · rfl
    · simp only [mapLinks, List.length_map]
  · rfl

/-- Lines with the same contents are decoded to the same if their items are the same. -/
theorem ofLines_eq_of_sameContents {lines lines' : List Text} (h : SameContents lines lines')
    {dialect : Dialect}
    (hitems : ∀ count, dialect.items (lines'.drop count) = dialect.items (lines.drop count)) :
    ofLines dialect lines' = ofLines dialect lines := by
  rw [← mapLinks_id (ofLines dialect lines)]
  apply ofLines_of_sameContents h
  intro count
  rw [Except.map_id, List.map_id]
  exact hitems count

end Decoded

end LinkDump
