/-! # UTF-8 text
The characters of a text, its bytes, and the reading of bytes that need not be well formed. Decoding
never fails: each maximal run of bytes that begins a character but does not finish it, and each byte
that can begin none, becomes one replacement character. It is a left-to-right machine whose state
says which continuation bytes are still awaited, so a byte below `0x80` always ends a character. -/

namespace LinkDump

/-- A text is the list of its characters. -/
abbrev Text := List Char

/-- Bytes in the order in which they arrive. -/
abbrev Bytes := List UInt8

namespace Utf8

/-- The bytes of a text. -/
def encode (text : Text) : Bytes := text.flatMap String.utf8EncodeChar

@[simp] theorem encode_nil : encode [] = [] := rfl

@[simp] theorem encode_cons (c : Char) (text : Text) :
    encode (c :: text) = String.utf8EncodeChar c ++ encode text := rfl

/-- Texts that are joined have the bytes of the one before those of the other. -/
@[simp] theorem encode_append (s t : Text) : encode (s ++ t) = encode s ++ encode t := by
  simp [encode]

/-- The number of bytes of a text. -/
def size (text : Text) : Nat := (encode text).length

@[simp] theorem size_nil : size [] = 0 := rfl

/-- Each character adds its own size. -/
@[simp] theorem size_cons (c : Char) (text : Text) : size (c :: text) = c.utf8Size + size text := by
  simp [size]

/-- The sizes of texts that are joined add up. -/
@[simp] theorem size_append (s t : Text) : size (s ++ t) = size s + size t := by
  simp [size]

/-! ## Decoding -/

/-- What stands for bytes that are no character. -/
def replacement : Char := '\uFFFD'

/-- A range of bytes that may come next inside a character. None of them could begin one. -/
structure Continuation where
  low : UInt8
  high : UInt8
  continues : 0x80 ≤ low := by decide
  deriving Repr, DecidableEq

/-- Whether a byte lies in a range. -/
def Continuation.contains (range : Continuation) (b : UInt8) : Bool :=
  range.low ≤ b && b ≤ range.high

/-- All bytes that may stand inside a character. -/
def Continuation.any : Continuation := { low := 0x80, high := 0xBF }

/-- No byte below `0x80` stands inside a character. -/
theorem Continuation.contains_of_ascii (range : Continuation) {b : UInt8} (h : b < 0x80) :
    range.contains b = false := by
  have := range.continues
  simp only [contains, UInt8.le_iff_toNat_le, UInt8.lt_iff_toNat_lt, Bool.and_eq_false_iff,
    decide_eq_false_iff_not] at *
  omega

/-- Where decoding stands inside a character. -/
inductive Pending
  /-- Between two characters. -/
  | nothing
  /-- Inside a character: the next byte has to lie in `next`, `left` more bytes follow it, and
  `value` holds the bits read so far. -/
  | tail (left : Nat) (next : Continuation) (value : Nat)
  deriving Repr, DecidableEq

/-- Read the first byte of a character: the characters it completes, and what is awaited next. The
second byte of a character has a narrower range where a wider one would admit a longer spelling than
needed, a surrogate, or a value above the last code point. -/
def lead (b : UInt8) : Text × Pending :=
  if b < 0x80 then ([Char.ofNat b.toNat], .nothing)
  else if b < 0xC2 then ([replacement], .nothing)
  else if b < 0xE0 then ([], .tail 0 .any (b.toNat % 32))
  else if b = 0xE0 then ([], .tail 1 { low := 0xA0, high := 0xBF } 0)
  else if b = 0xED then ([], .tail 1 { low := 0x80, high := 0x9F } 13)
  else if b < 0xF0 then ([], .tail 1 .any (b.toNat % 16))
  else if b = 0xF0 then ([], .tail 2 { low := 0x90, high := 0xBF } 0)
  else if b < 0xF4 then ([], .tail 2 .any (b.toNat % 8))
  else if b = 0xF4 then ([], .tail 2 { low := 0x80, high := 0x8F } 4)
  else ([replacement], .nothing)

/-- Read one byte. A byte that does not continue the character at hand closes it as a replacement
character and is then read as a first byte. -/
def Pending.step : Pending → UInt8 → Text × Pending
  | .nothing, b => lead b
  | .tail left next value, b =>
    if next.contains b then
      match left with
      | 0 => ([Char.ofNat (value * 64 + b.toNat % 64)], .nothing)
      | left + 1 => ([], .tail left .any (value * 64 + b.toNat % 64))
    else (replacement :: (lead b).1, (lead b).2)

/-- What is left to say at the end of the bytes: an unfinished character is replaced. -/
def Pending.close : Pending → Text
  | .nothing => []
  | .tail .. => [replacement]

/-- Decode bytes from a state. -/
def decodeFrom (pending : Pending) : Bytes → Text
  | [] => pending.close
  | b :: bytes => (pending.step b).1 ++ decodeFrom (pending.step b).2 bytes

/-- The text of bytes, with replacement characters where they are not well formed. -/
def decode (bytes : Bytes) : Text := decodeFrom .nothing bytes

@[simp] theorem decode_nil : decode [] = [] := rfl

/-- A byte below `0x80` is a character by itself. -/
@[simp] theorem lead_of_ascii {b : UInt8} (h : b < 0x80) :
    lead b = ([Char.ofNat b.toNat], .nothing) := by
  simp [lead, h]

/-- A byte below `0x80` ends whatever was pending and stands for itself. -/
theorem Pending.step_of_ascii (pending : Pending) {b : UInt8} (h : b < 0x80) :
    pending.step b = (pending.close ++ [Char.ofNat b.toNat], .nothing) := by
  cases pending with
  | nothing => simp [step, close, h]
  | tail left next value => simp [step, close, h, next.contains_of_ascii h]

/-- Bytes before one below `0x80`, and the bytes from there on, can be decoded on their own. -/
theorem decodeFrom_append_cons_of_ascii (pending : Pending) (before after : Bytes) {b : UInt8}
    (h : b < 0x80) :
    decodeFrom pending (before ++ b :: after) =
      decodeFrom pending before ++ decode (b :: after) := by
  induction before generalizing pending with
  | nil => simp [decodeFrom, decode, Pending.step_of_ascii _ h, Pending.close]
  | cons d before ih => simp [decodeFrom, ih]

end Utf8

end LinkDump
