import LinkDump.Text.Line

/-! # Sources
A source is a finite plan of what looking at it will give, look by look: a piece of bytes that stays
until it has been consumed, a failure, or a lull, which looks like the end but is not. A failure and
a lull are over once they have been seen. Bytes are only ever learnt by looking and taken by
consuming; reading a line, and matching a byte order mark, are loops of the two. The view of a
source is the list of its unread bytes, `Source.bytes`. -/

namespace LinkDump

/-- What one look at a source meets. -/
inductive Piece
  /-- Bytes, at least one, that stay until they are consumed. -/
  | chunk (first : UInt8) (rest : Bytes)
  /-- The look fails, once. -/
  | failure (reason : Text)
  /-- The look gives nothing, once. -/
  | lull
  deriving Repr, DecidableEq

/-- The pieces of a source in order. After the last one every look gives nothing. -/
abbrev Source := List Piece

namespace Source

/-- What reading from a source gives: a value or the reason of a failure, and the source after it.
-/
abbrev Answer (α : Type) := EStateM.Result Text Source α

/-- Put bytes in front of a source. -/
def push : Bytes → Source → Source
  | [], source => source
  | b :: bytes, source => .chunk b bytes :: source

/-- A source of the given bytes in one piece. -/
def ofBytes (bytes : Bytes) : Source := push bytes []

/-- The unread bytes of a source. -/
def bytes : Source → Bytes
  | [] => []
  | .chunk b rest :: source => b :: rest ++ bytes source
  | .failure _ :: source => bytes source
  | .lull :: source => bytes source

@[simp] theorem bytes_nil : bytes [] = [] := rfl

@[simp] theorem bytes_chunk (b : UInt8) (rest : Bytes) (source : Source) :
    bytes (.chunk b rest :: source) = b :: rest ++ bytes source := rfl

@[simp] theorem bytes_failure (reason : Text) (source : Source) :
    bytes (.failure reason :: source) = bytes source := rfl

@[simp] theorem bytes_lull (source : Source) : bytes (.lull :: source) = bytes source := rfl

/-- Bytes that are put in front of a source are the first unread ones. -/
@[simp] theorem bytes_push (bs : Bytes) (source : Source) :
    bytes (push bs source) = bs ++ bytes source := by
  cases bs <;> rfl

/-- A source of some bytes has just these to be read. -/
@[simp] theorem bytes_ofBytes (bs : Bytes) : bytes (ofBytes bs) = bs := by
  simp [ofBytes]

/-! ## Looking and consuming -/

/-- Look at the front of a source. No bytes mean the end, or a lull. -/
def look : Source → Answer Bytes
  | [] => .ok [] []
  | .chunk b rest :: source => .ok (b :: rest) (.chunk b rest :: source)
  | .failure reason :: source => .error reason source
  | .lull :: source => .ok [] source

/-- Take bytes off the piece in front. -/
def consume (count : Nat) : Source → Source
  | .chunk b rest :: source => push ((b :: rest).drop count) source
  | source => source

/-- To consume no bytes changes nothing. -/
@[simp] theorem consume_zero (source : Source) : consume 0 source = source := by
  cases source with
  | nil => rfl
  | cons piece source => cases piece <;> rfl

/-- A look leaves all unread bytes where they are. -/
theorem bytes_of_look_eq_ok {source source' : Source} {bs : Bytes}
    (h : source.look = .ok bs source') : source'.bytes = source.bytes := by
  match source, h with
  | [], h => cases h; rfl
  | .chunk b rest :: source, h => cases h; rfl
  | .lull :: source, h => cases h; rfl

/-- Consuming takes bytes off the front of the unread ones. -/
theorem bytes_consume_of_look {source source' : Source} {bs : Bytes} {count : Nat}
    (h : source.look = .ok bs source') (hc : count ≤ bs.length) :
    source.bytes = bs.take count ++ (source'.consume count).bytes := by
  match source, h with
  | [], h => cases h; simp [consume]
  | .chunk b rest :: source, h =>
    cases h
    rw [consume, bytes_push, ← List.append_assoc, List.take_append_drop, bytes_chunk]
  | .lull :: source, h =>
    cases h
    obtain rfl : count = 0 := by simpa using hc
    simp

/-! ## Reading a line -/

/-- Consume up to and including the next newline, or up to a look that gives nothing. Nothing read
means that there was nothing to read. A failure loses what had been consumed for the line. -/
def readLine : Source → Answer Bytes
  | [] => .ok [] []
  | .lull :: source => .ok [] source
  | .failure reason :: source => .error reason source
  | .chunk b rest :: source =>
    if newline ∈ b :: rest then
      .ok (firstLine (b :: rest)) (push (afterFirstLine (b :: rest)) source)
    else match readLine source with
      | .ok line source => .ok (b :: rest ++ line) source
      | .error reason source => .error reason source

/-- A line read is what the source has lost. -/
theorem bytes_of_readLine_eq_ok {source source' : Source} {line : Bytes}
    (h : source.readLine = .ok line source') : source.bytes = line ++ source'.bytes := by
  induction source generalizing line with
  | nil => cases h; rfl
  | cons piece source ih =>
    cases piece with
    | lull => cases h; rfl
    | failure reason => cases h
    | chunk b rest =>
      rw [readLine] at h
      split at h
      · cases h
        simp [← List.append_assoc]
      · split at h
        next line' source'' hread => cases h; simp [ih hread]
        next => cases h

/-! ## Matching a byte order mark -/

/-- Consume what continues a byte order mark of which `matched` bytes have been seen, and say how
many have been seen then: all three if the mark is complete, fewer if other bytes, a lull or the end
came first. -/
def matchMark (matched : Nat) : Source → Answer Nat
  | [] => .ok matched []
  | .lull :: source =>
    if matched < byteOrderMark.length then .ok matched source else .ok matched (.lull :: source)
  | .failure reason :: source =>
    if matched < byteOrderMark.length then .error reason source
    else .ok matched (.failure reason :: source)
  | .chunk b rest :: source =>
    if matched < byteOrderMark.length then
      match continueMark matched (b :: rest) with
      | none => .ok matched (.chunk b rest :: source)
      | some count =>
        if count < (b :: rest).length then
          .ok (matched + count) (push ((b :: rest).drop count) source)
        else matchMark (matched + count) source
    else .ok matched (.chunk b rest :: source)

/-- What is consumed is the next part of the mark, and nothing of it is lost. -/
theorem bytes_of_matchMark_eq_ok {source source' : Source} {matched count : Nat}
    (hm : matched ≤ byteOrderMark.length) (h : source.matchMark matched = .ok count source') :
    matched ≤ count ∧ count ≤ byteOrderMark.length ∧
      byteOrderMark.take matched ++ source.bytes = byteOrderMark.take count ++ source'.bytes := by
  induction source generalizing matched with
  | nil => cases h; simp [hm]
  | cons piece source ih =>
    cases piece with
    | lull => rw [matchMark] at h; split at h <;> cases h <;> simp [hm]
    | failure reason => rw [matchMark] at h; split at h <;> cases h; simp [hm]
    | chunk b rest =>
      rw [matchMark] at h
      split at h
      · split at h
        · cases h; simp [hm]
        next taken hcont =>
          obtain ⟨-, rfl, htake⟩ := continueMark_eq_some_iff.mp hcont
          have hle : matched + min (b :: rest).length (byteOrderMark.length - matched) ≤
              byteOrderMark.length := by omega
          have hcut : byteOrderMark.take matched ++ (b :: rest) = byteOrderMark.take (matched +
              min (b :: rest).length (byteOrderMark.length - matched)) ++
              (b :: rest).drop (min (b :: rest).length (byteOrderMark.length - matched)) := by
            rw [List.take_add, ← htake, List.append_assoc, List.take_append_drop]
          split at h
          · cases h
            refine ⟨by omega, hle, ?_⟩
            rw [bytes_chunk, bytes_push, ← List.append_assoc, hcut, List.append_assoc]
          next hlt =>
            obtain ⟨h1, h2, h3⟩ := ih hle h
            refine ⟨by omega, h2, ?_⟩
            rw [← h3, bytes_chunk, ← List.append_assoc, hcut, List.drop_eq_nil_of_le (by omega),
              List.append_nil]
      · cases h; simp [hm]

end Source

end LinkDump
