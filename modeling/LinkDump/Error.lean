import LinkDump.Text.Quoted

/-! # Errors
What can go wrong while a dump is decoded: the cause on one line, and the cause together with the
line on which it was met. Every offending line is held without its line break. The wording of each
cause is in `LineError.message` alone. -/

namespace LinkDump

/-- What went wrong on a line, without saying which line. -/
inductive LineError
  /-- The name of a meta field holds a character other than `A` to `Z`. -/
  | invalidMetaChar (char : Char) (line : Text)
  /-- A meta line starts with its separator. -/
  | metaMissingName (line : Text)
  /-- A meta line has no separator. -/
  | metaMissingValue (line : Text)
  /-- A link line has three bars or more where at most two are allowed. -/
  | tooManyBars (line : Text)
  /-- A link line has no bar where one is needed. -/
  | missingBar (line : Text)
  /-- A link line has a bar, but not after exactly `width` bytes. -/
  | barNotAtWidth (width : Nat) (line : Text)
  /-- The source of the bytes failed. -/
  | input (reason : Text)
  /-- A line was handed back while another one was still waiting. -/
  | slotOccupied
  deriving Repr, DecidableEq

namespace LineError

/-- Why a second line cannot be handed back. -/
def slotOccupiedMessage : Text :=
  "pushback slot already holds a line; at most one line of lookahead is allowed".toList

/-- The wording of a cause. -/
def message : LineError → Text
  | invalidMetaChar char line =>
    "invalid character ".toList ++ quoteChar char ++ " in meta field: ".toList ++ quoteText line
  | metaMissingName line => "meta line missing field name: ".toList ++ quoteText line
  | metaMissingValue line => "meta line missing value: ".toList ++ quoteText line
  | tooManyBars line => "link line has too many bar separators: ".toList ++ quoteText line
  | missingBar line => "link line missing bar separator: ".toList ++ quoteText line
  | barNotAtWidth width line =>
    "shortcode not ".toList ++ Nat.toDigits 10 width ++ " characters: ".toList ++ quoteText line
  | input reason => reason
  | slotOccupied => slotOccupiedMessage

/-- The offending line, for the causes that lie in one. -/
def line? : LineError → Option Text
  | invalidMetaChar _ line | metaMissingName line | metaMissingValue line | tooManyBars line
  | missingBar line | barNotAtWidth _ line => some line
  | input _ | slotOccupied => none

/-- Whether the source of the bytes failed. -/
def isInput : LineError → Bool
  | input _ => true
  | _ => false

end LineError

/-- A cause pinned to the number of physical lines that had been read when it was met. -/
structure DecodeError where
  line : Nat
  cause : LineError
  deriving Repr, DecidableEq

/-- The wording of a decoding error. -/
def DecodeError.message (e : DecodeError) : Text :=
  "beacon: line ".toList ++ Nat.toDigits 10 e.line ++ ": ".toList ++ e.cause.message

end LinkDump
