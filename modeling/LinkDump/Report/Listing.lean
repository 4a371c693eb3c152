import LinkDump.Text.Utf8

/-! # Listings
Records on lines of their own. A record that holds line breaks is printed with escapes in their
place, so that it stays on one line. -/

namespace LinkDump

/-- Close each line with a newline, and join them. -/
def unlines (lines : List Text) : Text := lines.flatMap (· ++ ['\n'])

@[simp] theorem unlines_nil : unlines [] = [] := rfl

/-- The first line comes first, closed with a newline. -/
@[simp] theorem unlines_cons (line : Text) (lines : List Text) :
    unlines (line :: lines) = line ++ '\n' :: unlines lines := by
  simp [unlines]

/-- Lines are joined part by part. -/
@[simp] theorem unlines_append (s t : List Text) : unlines (s ++ t) = unlines s ++ unlines t := by
  simp [unlines]

/-- The spelling of a character in a listing: a line break character is written as its escape. -/
def listingChar (c : Char) : Text :=
  if c = '\r' then ['\\', 'r'] else if c = '\n' then ['\\', 'n'] else [c]

/-- The text of a record on one line. -/
def oneLine (text : Text) : Text := text.flatMap listingChar

/-- A count and its noun, in the plural unless there is exactly one. -/
def counted (count : Nat) (noun : String) : Text :=
  Nat.toDigits 10 count ++ [' '] ++ noun.toList ++ if count = 1 then [] else ['s']

end LinkDump
