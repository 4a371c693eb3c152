/-! # Ranges of code points
A set of code points is a list of closed ranges in increasing order, so that a search for a small
code point stops early. -/

namespace LinkDump

/-- A set of code points, as closed ranges in increasing order. -/
abbrev CodeRanges := List (Nat × Nat)

namespace CodeRanges

/-- Whether a code point lies in one of the ranges. -/
def contains : CodeRanges → Nat → Bool
  | [], _ => false
  | (first, last) :: ranges, n => first ≤ n && (n ≤ last || contains ranges n)

end CodeRanges

end LinkDump
