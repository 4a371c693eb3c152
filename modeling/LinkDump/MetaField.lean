import LinkDump.Error
import LinkDump.Text.Line

/-! # Meta fields
A header line `#NAME: value`. The name is one or more letters `A` to `Z`; it ends at the first
colon, space or tab, and blanks after that separator are no part of the value. -/

namespace LinkDump

/-- A named value from the header of a dump. -/
structure MetaField where
  name : Text
  value : Text
  deriving Repr, DecidableEq

namespace MetaField

/-- What ends the name of a field. -/
def isSeparator (c : Char) : Bool := c == ':' || isBlankChar c

/-- The field of a header line, given the text after `#`. Errors quote the line with its `#`. -/
def ofText (text : Text) : Except LineError MetaField :=
  let line := '#' :: text
  match text.takeWhile Char.isUpper, text.dropWhile Char.isUpper with
  | _, [] => .error (.metaMissingValue line)
  | name, c :: value =>
    if !isSeparator c then .error (.invalidMetaChar c line)
    else if name.isEmpty then .error (.metaMissingName line)
    else .ok ⟨name, trimBlanks value⟩

/-- The field as a header line, with a colon and a space as its separator. -/
def render (field : MetaField) : Text := '#' :: field.name ++ ':' :: ' ' :: field.value

end MetaField

end LinkDump
