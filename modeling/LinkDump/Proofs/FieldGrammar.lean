import LinkDump.MetaField
import LinkDump.Proofs.Runs

/-! # The grammar of meta fields
A text is a meta field if it is a name of capital letters, a separator, blanks, and a value that
starts with none. `Spelling` is such a text taken apart. A text has one spelling at most, and the
field of that spelling is the one that is read; a text that has none is refused for the first
character that cannot go on. -/

namespace LinkDump

namespace MetaField

/-- A name of one or more letters `A` to `Z`, and a value that starts with no blank. -/
structure Proper (field : MetaField) : Prop where
  name_ne_nil : field.name ≠ []
  letters : ∀ c ∈ field.name, 'A' ≤ c ∧ c ≤ 'Z'
  no_blank : ∀ c ∈ field.value.head?, ¬(c = ' ' ∨ c = '\t')

/-- One way to write a field: what ends the name, and the blanks that mean nothing. -/
structure Spelling where
  field : MetaField
  separator : Char
  blanks : Text
  proper : field.Proper
  separator_mem : separator ∈ [':', ' ', '\t']
  blank : ∀ c ∈ blanks, c = ' ' ∨ c = '\t'

/-- The text of a spelling. -/
def Spelling.text (spelling : Spelling) : Text :=
  spelling.field.name ++ spelling.separator :: (spelling.blanks ++ spelling.field.value)

/-- A text that is cut behind the longest run of letters at its start. -/
structure CutBehindLetters (text letters rest : Text) : Prop where
  eq_append : text = letters ++ rest
  letters : ∀ c ∈ letters, 'A' ≤ c ∧ c ≤ 'Z'
  maximal : ∀ c ∈ rest.head?, ¬('A' ≤ c ∧ c ≤ 'Z')

/-! ## Classes of characters -/

/-- The letters of a name are `A` to `Z`. -/
theorem isUpper_iff {c : Char} : c.isUpper = true ↔ 'A' ≤ c ∧ c ≤ 'Z' := decide_eq_true_iff

/-- The blanks are the space and the tab. -/
theorem isBlankChar_iff {c : Char} : isBlankChar c = true ↔ c = ' ' ∨ c = '\t' := by
  simp [isBlankChar]

/-- The separators are the colon and the blanks. -/
theorem isSeparator_iff {c : Char} : isSeparator c = true ↔ c ∈ [':', ' ', '\t'] := by
  simp [isSeparator, isBlankChar]

/-- No separator is a letter. -/
theorem not_letter_of_separator {c : Char} (h : c ∈ [':', ' ', '\t']) : ¬('A' ≤ c ∧ c ≤ 'Z') := by
  simp only [List.mem_cons, List.not_mem_nil, or_false] at h
  rcases h with rfl | rfl | rfl <;> decide

instance (field : MetaField) : Decidable field.Proper :=
  decidable_of_iff (field.name ≠ [] ∧ field.name.all Char.isUpper ∧
      field.value.head?.all (fun c => !isBlankChar c)) <| by
    rw [List.all_eq_true, Option.all_eq_true]
    simp only [isUpper_iff, Bool.not_eq_true', ← Bool.not_eq_true, isBlankChar_iff]
    exact ⟨fun h => ⟨h.1, h.2.1, h.2.2⟩, fun h => ⟨h.1, h.2, h.3⟩⟩

/-! ## Reading -/

/-- Every text can be cut behind its leading letters. -/
theorem exists_cutBehindLetters (text : Text) :
    ∃ letters rest, CutBehindLetters text letters rest := by
  refine ⟨text.takeWhile Char.isUpper, text.dropWhile Char.isUpper,
    List.takeWhile_append_dropWhile.symm, ?_, ?_⟩
  · intro c hmem
    exact isUpper_iff.mp (List.mem_takeWhile_imp hmem)
  · -- What is left behind the letters does not start with one.
    intro c hc hletter
    have hnot := List.head?_dropWhile_not Char.isUpper text
    rw [Option.mem_def] at hc
    rw [hc] at hnot
    simp [isUpper_iff.mpr hletter] at hnot

namespace CutBehindLetters

variable {text letters : Text}

/-- The cut behind the leading letters is the one that reading a field makes. -/
theorem takeWhile_dropWhile {rest : Text} (h : CutBehindLetters text letters rest) :
    text.takeWhile Char.isUpper = letters ∧ text.dropWhile Char.isUpper = rest := by
  rw [h.eq_append]
  exact takeWhile_dropWhile_of_run (fun c hc => isUpper_iff.mpr (h.letters c hc))
    (fun c hc => mt isUpper_iff.mp (h.maximal c hc))

/-- Letters alone have no separator behind them. -/
theorem ofText_nil (h : CutBehindLetters text letters []) :
    ofText text = .error (.metaMissingValue ('#' :: text)) := by
  obtain ⟨htake, hdrop⟩ := h.takeWhile_dropWhile
  simp only [ofText, htake, hdrop]

/-- Behind a name, a separator ends it. -/
theorem ofText_name {c : Char} {value : Text} (h : CutBehindLetters text letters (c :: value))
    (hne : letters ≠ []) (hc : c ∈ [':', ' ', '\t']) :
    ofText text = .ok ⟨letters, trimBlanks value⟩ := by
  obtain ⟨htake, hdrop⟩ := h.takeWhile_dropWhile
  simp [ofText, htake, hdrop, isSeparator_iff.mpr hc, hne]

/-- Any other character is refused, and so is a separator without a name. -/
theorem ofText_cons {c : Char} {value : Text} (h : CutBehindLetters text letters (c :: value))
    (hc : ¬(letters ≠ [] ∧ c ∈ [':', ' ', '\t'])) :
    ofText text = .error (if letters = [] ∧ c ∈ [':', ' ', '\t'] then .metaMissingName ('#' :: text)
      else .invalidMetaChar c ('#' :: text)) := by
  obtain ⟨htake, hdrop⟩ := h.takeWhile_dropWhile
  by_cases hsep : c ∈ [':', ' ', '\t']
  · -- A separator is only refused where no name stands in front of it.
    have hnil : letters = [] := by
      by_contra hne
      exact hc ⟨hne, hsep⟩
    rw [if_pos ⟨hnil, hsep⟩]
    simp [ofText, htake, hdrop, isSeparator_iff.mpr hsep, hnil]
  · have hnot : isSeparator c = false := by simpa using mt isSeparator_iff.mp hsep
    rw [if_neg fun h => hsep h.2]
    simp [ofText, htake, hdrop, hnot]

end CutBehindLetters

/-! ## Spellings -/

namespace Spelling

variable (spelling : Spelling)

/-- The leading letters of a spelling are the name of its field. -/
theorem cutBehindLetters :
    CutBehindLetters spelling.text spelling.field.name
      (spelling.separator :: (spelling.blanks ++ spelling.field.value)) where
  eq_append := rfl
  letters := spelling.proper.letters
  maximal := by
    rintro c ⟨⟩
    exact not_letter_of_separator spelling.separator_mem

/-- The field of a spelling is what its text is read as. -/
theorem ofText_text : ofText spelling.text = .ok spelling.field := by
  have hvalue := (takeWhile_dropWhile_of_run
    (fun c hc => isBlankChar_iff.mpr (spelling.blank c hc))
    (fun c hc => mt isBlankChar_iff.mp (spelling.proper.no_blank c hc))).2
  rw [spelling.cutBehindLetters.ofText_name spelling.proper.name_ne_nil spelling.separator_mem,
    trimBlanks, hvalue]

/-- A text that is read as a field spells it. -/
theorem exists_of_ofText {text : Text} {field : MetaField} (h : ofText text = .ok field) :
    ∃ spelling : Spelling, spelling.text = text ∧ spelling.field = field := by
  obtain ⟨letters, rest, hcut⟩ := exists_cutBehindLetters text
  cases rest with
  | nil =>
    rw [hcut.ofText_nil] at h
    cases h
  | cons c value =>
    by_cases hc : letters ≠ [] ∧ c ∈ [':', ' ', '\t']
    · rw [hcut.ofText_name hc.1 hc.2] at h
      cases h
      -- The blanks in front of the value are those that are trimmed.
      refine ⟨⟨⟨letters, trimBlanks value⟩, c, value.takeWhile isBlankChar,
        ⟨hc.1, hcut.letters, ?_⟩, hc.2, ?_⟩, ?_, rfl⟩
      · intro d hd hblank
        have hnot := List.head?_dropWhile_not isBlankChar value
        rw [trimBlanks, Option.mem_def] at hd
        rw [hd] at hnot
        simp [isBlankChar_iff.mpr hblank] at hnot
      · intro d hmem
        exact isBlankChar_iff.mp (List.mem_takeWhile_imp hmem)
      · show letters ++ c :: (value.takeWhile isBlankChar ++ value.dropWhile isBlankChar) = text
        rw [List.takeWhile_append_dropWhile, hcut.eq_append]
    · rw [hcut.ofText_cons hc] at h
      cases h

/-- A text is taken apart in one way: its field is what is read, and the separator and the blanks
are what stands between the name and the value. -/
theorem text_injective : Function.Injective text := by
  intro spelling spelling' htext
  -- Both are read as one field, so that name and value are the same and cancel.
  have hread := spelling.ofText_text
  rw [htext, spelling'.ofText_text] at hread
  obtain ⟨field, separator, blanks, hproper, hseparator, hblank⟩ := spelling
  obtain ⟨field', separator', blanks', hproper', hseparator', hblank'⟩ := spelling'
  obtain rfl : field' = field := Except.ok.inj hread
  rw [text, text, List.append_cancel_left_eq, List.cons.injEq, List.append_cancel_right_eq] at htext
  obtain ⟨rfl, rfl⟩ := htext
  rfl

/-- The spelling of a field with a colon and a space. -/
def ofField {field : MetaField} (h : field.Proper) : Spelling where
  field := field
  separator := ':'
  blanks := [' ']
  proper := h
  separator_mem := by simp
  blank := by simp

end Spelling

/-- The grammar of fields. A text is read as a field exactly if it spells that field, and it has one
spelling at most. If it has none, the line of the text and the `#` before it is refused: for want of
a value if the text is letters alone, for want of a name if it starts with a separator, and
otherwise for the character behind its letters. The rendering of a field spells it behind the `#`. -/
theorem grammar_of_fields :
    (∀ text field, ofText text = .ok field ↔
      ∃ spelling : Spelling, spelling.text = text ∧ spelling.field = field) ∧
    (∀ spelling spelling' : Spelling, spelling.text = spelling'.text → spelling = spelling') ∧
    (∀ text, ∃ letters rest, CutBehindLetters text letters rest) ∧
    (∀ text letters rest, CutBehindLetters text letters rest →
      (∀ spelling : Spelling, spelling.text ≠ text) →
      ofText text = .error (match rest with
        | [] => .metaMissingValue ('#' :: text)
        | c :: _ => if letters = [] ∧ c ∈ [':', ' ', '\t'] then .metaMissingName ('#' :: text)
          else .invalidMetaChar c ('#' :: text))) ∧
    ∀ field : MetaField, field.Proper →
      ∃ text, field.render = '#' :: text ∧ ofText text = .ok field := by
  refine ⟨?_, Spelling.text_injective, exists_cutBehindLetters, ?_, ?_⟩
  · intro text field
    constructor
    · exact Spelling.exists_of_ofText
    · rintro ⟨spelling, rfl, rfl⟩
      exact spelling.ofText_text
  · intro text letters rest hcut hnone
    cases rest with
    | nil => exact hcut.ofText_nil
    | cons c value =>
      apply hcut.ofText_cons
      rintro ⟨hne, hc⟩
      -- Else the text would spell a field.
      obtain ⟨spelling, htext, -⟩ := Spelling.exists_of_ofText (hcut.ofText_name hne hc)
      exact hnone spelling htext
  · intro field hproper
    exact ⟨_, rfl, (Spelling.ofField hproper).ofText_text⟩

/-- A tab ends the name, blanks follow it, and the value starts with a colon; a small letter behind
a capital one is refused although a colon follows; and a field without a value is rendered. -/
theorem grammar_of_three_lines :
    ofText ['A', '\t', ' ', '\t', ':', ' '] = .ok ⟨['A'], [':', ' ']⟩ ∧
    ofText ['A', 'b', ':'] = .error (.invalidMetaChar 'b' ['#', 'A', 'b', ':']) ∧
    ∃ text, ['#', 'Z', ':', ' '] = '#' :: text ∧ ofText text = .ok ⟨['Z'], []⟩ := by
  obtain ⟨hspelled, -, -, hrefused, hrendered⟩ := grammar_of_fields
  have hproper : (⟨['A'], [':', ' ']⟩ : MetaField).Proper := by decide
  refine ⟨(hspelled _ _).mpr ⟨⟨_, '\t', [' ', '\t'], hproper, by simp, by simp⟩, rfl, rfl⟩, ?_,
    hrendered ⟨['Z'], []⟩ (by decide)⟩
  refine hrefused _ ['A'] ['b', ':'] ⟨rfl, hproper.letters, by simp [Char.le_def]⟩ ?_
  intro spelling htext
  have hread := (hspelled _ _).mpr ⟨spelling, htext, rfl⟩
  rw [show ofText ['A', 'b', ':'] = .error (.invalidMetaChar 'b' ['#', 'A', 'b', ':']) by rfl]
    at hread
  cases hread

end MetaField

end LinkDump
