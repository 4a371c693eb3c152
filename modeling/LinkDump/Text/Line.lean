import LinkDump.Text.Utf8

/-! # Lines
A physical line runs up to and including the next newline byte; the last one may lack it. A line of
text may end in a line break, `"\n"` or `"\r\n"`; a carriage return that no newline follows is
content. Blanks are spaces and tabs only. -/

namespace LinkDump

/-! ## Physical lines -/

/-- The byte that ends a physical line. -/
def newline : UInt8 := 0x0A

/-- The first physical line of some bytes, its newline included. -/
def firstLine : Bytes → Bytes
  | [] => []
  | b :: bytes => if b = newline then [b] else b :: firstLine bytes

/-- What follows the first physical line. -/
def afterFirstLine : Bytes → Bytes
  | [] => []
  | b :: bytes => if b = newline then bytes else afterFirstLine bytes

/-- All physical lines of some bytes, in order. None is empty. -/
def physicalLines : Bytes → List Bytes
  | [] => []
  | b :: bytes =>
    if b = newline then [b] :: physicalLines bytes
    else match physicalLines bytes with
      | [] => [[b]]
      | line :: lines => (b :: line) :: lines

/-- The first line and what follows it are all of the bytes. -/
@[simp] theorem firstLine_append_afterFirstLine (bytes : Bytes) :
    firstLine bytes ++ afterFirstLine bytes = bytes := by
  induction bytes with
  | nil => rfl
  | cons b bytes ih => by_cases h : b = newline <;> simp [firstLine, afterFirstLine, h, ih]

/-- Only where there are no bytes is there no first line. -/
theorem firstLine_eq_nil {bytes : Bytes} : firstLine bytes = [] ↔ bytes = [] := by
  cases bytes with
  | nil => simp [firstLine]
  | cons b bytes => by_cases h : b = newline <;> simp [firstLine, h]

/-- Cutting bytes into lines loses none of them. -/
theorem flatten_physicalLines (bytes : Bytes) : (physicalLines bytes).flatten = bytes := by
  induction bytes with
  | nil => rfl
  | cons b bytes ih =>
    rw [physicalLines]
    split
    · simp [ih]
    · split <;> simp_all

/-- The lines of some bytes are the first one, and those of the bytes behind it. -/
theorem physicalLines_eq_cons {bytes : Bytes} (h : bytes ≠ []) :
    physicalLines bytes = firstLine bytes :: physicalLines (afterFirstLine bytes) := by
  induction bytes with
  | nil => exact absurd rfl h
  | cons b bytes ih =>
    by_cases hb : b = newline
    · simp [physicalLines, firstLine, afterFirstLine, hb]
    · rw [physicalLines, if_neg hb, firstLine, if_neg hb, afterFirstLine, if_neg hb]
      cases bytes with
      | nil => rfl
      | cons d bytes => rw [ih (List.cons_ne_nil d bytes)]

/-! ## Line breaks and blanks -/

/-- Drop one line break, `"\n"` or `"\r\n"`, from the end of a line. -/
def dropLineBreak : Text → Text
  | [] => []
  | ['\n'] => []
  | ['\r', '\n'] => []
  | c :: text => c :: dropLineBreak text

/-- A blank is a space or a tab. -/
def isBlankChar (c : Char) : Bool := c == ' ' || c == '\t'

/-- Drop the blanks at the start of a text. -/
def trimBlanks (text : Text) : Text := text.dropWhile isBlankChar

/-- A text of blanks only. -/
def isBlank (text : Text) : Bool := text.all isBlankChar

/-- A text is blank exactly if nothing is left without the blanks in front. -/
theorem isBlank_iff_trimBlanks_eq_nil {text : Text} : isBlank text ↔ trimBlanks text = [] := by
  induction text with
  | nil => simp [isBlank, trimBlanks]
  | cons c text ih => by_cases h : isBlankChar c <;> simp_all [isBlank, trimBlanks]

/-- Behind the blanks in front there are no further ones to drop. -/
@[simp] theorem trimBlanks_trimBlanks (text : Text) :
    trimBlanks (trimBlanks text) = trimBlanks text := by
  induction text with
  | nil => rfl
  | cons c text ih => by_cases h : isBlankChar c <;> simp_all [trimBlanks, List.dropWhile]

/-! ## The byte order mark -/

/-- The bytes of U+FEFF, with which a dump may start. -/
def byteOrderMark : Bytes := [0xEF, 0xBB, 0xBF]

/-- How many bytes at the front of `bytes` continue a byte order mark of which `matched` bytes have
already been seen; `none` if they break it. Bytes that end before the mark does agree with it as a
whole. -/
def continueMark (matched : Nat) (bytes : Bytes) : Option Nat :=
  if matched ≤ byteOrderMark.length then
    let awaited := byteOrderMark.drop matched
    let count := min bytes.length awaited.length
    if bytes.take count = awaited.take count then some count else none
  else none

/-- Bytes go on with a mark as far as both reach, if they agree with it so far. -/
theorem continueMark_eq_some_iff {matched count : Nat} {bytes : Bytes} :
    continueMark matched bytes = some count ↔ matched ≤ byteOrderMark.length ∧
      count = min bytes.length (byteOrderMark.length - matched) ∧
      bytes.take count = (byteOrderMark.drop matched).take count := by
  simp only [continueMark, List.length_drop]
  split
  next hle =>
    split
    next htake => grind
    next htake => grind
  next hle => simp [hle]

/-- Bytes that go on with an unfinished mark go on with it by at least one byte. -/
theorem continueMark_pos {matched count : Nat} {bytes : Bytes} (hm : matched < byteOrderMark.length)
    (hb : bytes ≠ []) (h : continueMark matched bytes = some count) : 0 < count := by
  have hpos := List.length_pos_iff.mpr hb
  obtain ⟨-, rfl, -⟩ := continueMark_eq_some_iff.mp h
  omega

end LinkDump
