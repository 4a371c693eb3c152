import LinkDump.Error
import LinkDump.Link
import LinkDump.MetaField

/-! # Decoded dumps
What is known of a dump once it has been read as far as it goes. -/

namespace LinkDump

/-- Where the decoding of a dump stands. After the end and after any error it is done for good. -/
inductive Phase
  /-- The header has not been scanned. -/
  | header
  /-- The header is over, and links are being read. -/
  | links
  /-- Nothing more will be read. -/
  | done
  deriving Repr, DecidableEq

/-- The outcome of decoding a whole dump: its meta fields, the links before the end or the first
error, that error if there is one, and the number of physical lines that were read. -/
structure Decoded where
  fields : List MetaField
  links : List Link
  failure : Option DecodeError
  line : Nat
  deriving Repr, DecidableEq

namespace Decoded

/-- The links as a sequence of items, the error last. -/
def items (decoded : Decoded) : List (Except DecodeError Link) :=
  decoded.links.map .ok ++ decoded.failure.toList.map .error

/-- The text of each meta field and then of each link. -/
def render (decoded : Decoded) : List Text :=
  decoded.fields.map MetaField.render ++ decoded.links.map Link.render

end Decoded

end LinkDump
