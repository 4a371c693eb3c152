/-! # Dialects
How link lines are cut into fields. -/

namespace LinkDump

/-- The kinds of link lines. -/
inductive Dialect
  /-- One to three fields between bars: source, source and target, or source, note and target. -/
  | rfc
  /-- The first bar ends the source; the rest of the line is the target. -/
  | variableWidth
  /-- The source has exactly `width` bytes and a bar follows it; lines without a bar at that place
  continue the target. -/
  | fixedWidth (width : Nat)
  deriving Repr, DecidableEq

namespace Dialect

/-- A dump of which nothing is known is read with its fields between bars. -/
instance : Inhabited Dialect := ⟨rfc⟩

/-- The dialect of dumps of short codes: of the given width, or of any width if that is zero. -/
def ofCodeWidth : Nat → Dialect
  | 0 => variableWidth
  | width + 1 => fixedWidth (width + 1)

/-- The width of the source, in the dialect that fixes it. -/
def width? : Dialect → Option Nat
  | fixedWidth width => some width
  | _ => none

/-- A code width of zero fixes no width. -/
@[simp] theorem width?_ofCodeWidth_zero : (ofCodeWidth 0).width? = none := rfl

/-- Any other code width is the width of the source. -/
@[simp] theorem width?_ofCodeWidth_succ (width : Nat) :
    (ofCodeWidth (width + 1)).width? = some (width + 1) := rfl

end Dialect

end LinkDump
