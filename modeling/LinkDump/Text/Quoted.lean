import LinkDump.Text.Combining
import LinkDump.Text.Unprintable
import LinkDump.Text.Utf8

/-! # Quoted text
A text or a character as it stands in a message: between two marks, on one line, and so that the
text itself can be read back from it. Five characters have a short escape, the mark itself is
escaped by a backslash, and every other character that is unprintable or combining is written by its
code point in hexadecimal. -/

namespace LinkDump

namespace Quoted

/-- The mark around a text. -/
def textMark : Char := '\x22'

/-- The mark around a single character. -/
def charMark : Char := '\x27'

/-- Whether a character is written by its code point. -/
def needsCode (c : Char) : Bool := isCombining c || isUnprintable c

/-- The spelling of a character by its code point, in lower-case hexadecimal without leading zeros.
-/
def code (c : Char) : Text :=
  ['\\', 'u', '\x7b'] ++ Nat.toDigits 16 c.toNat ++ ['\x7d']

/-- The spelling of one character between two marks. -/
def escape (mark c : Char) : Text :=
  if c = '\x00' then ['\\', '0']
  else if c = '\t' then ['\\', 't']
  else if c = '\r' then ['\\', 'r']
  else if c = '\n' then ['\\', 'n']
  else if c = '\\' then ['\\', '\\']
  else if c = mark then ['\\', c]
  else if needsCode c then code c
  else [c]

/-- The spelling of a text between two marks. -/
def escapeAll (mark : Char) (text : Text) : Text := text.flatMap (escape mark)

@[simp] theorem escapeAll_nil (mark : Char) : escapeAll mark [] = [] := rfl

@[simp] theorem escapeAll_cons (mark c : Char) (text : Text) :
    escapeAll mark (c :: text) = escape mark c ++ escapeAll mark text := rfl

/-- Texts that are joined are spelled one after the other. -/
@[simp] theorem escapeAll_append (mark : Char) (s t : Text) :
    escapeAll mark (s ++ t) = escapeAll mark s ++ escapeAll mark t := by
  simp [escapeAll]

end Quoted

/-- A text between double quotes. -/
def quoteText (text : Text) : Text :=
  Quoted.textMark :: Quoted.escapeAll Quoted.textMark text ++ [Quoted.textMark]

/-- A character between single quotes. -/
def quoteChar (c : Char) : Text :=
  Quoted.charMark :: Quoted.escape Quoted.charMark c ++ [Quoted.charMark]

end LinkDump
