import LinkDump.Header
import LinkDump.Proofs.Position

/-! # The lines of a header
Which lines of a dump its header takes: the run of meta lines from the first line on, and, if there
is one, the run of blank lines after it. The scan of a header over chunks takes exactly these. Its
steps are one for each kind of line, in `Scanner.feed`; a run of accepted meta lines and a run of
blank lines follow by induction on the lines. -/

namespace LinkDump

/-! ## Kinds of lines -/

/-- Whether a line, with its line break, starts with `#`. -/
def isMetaLine (line : Text) : Bool := line.head? == some '#'

/-- Whether a line holds only blanks before its line break. -/
def isBlankLine (line : Text) : Bool := isBlank (dropLineBreak line)

/-- The meta field of a line: what stands between its first character and its line break. -/
def fieldOfLine (line : Text) : Except LineError MetaField :=
  MetaField.ofText (dropLineBreak line).tail

/-- The lines that hold the meta fields of a dump. -/
def metaLines (lines : List Text) : List Text := lines.takeWhile isMetaLine

/-- How many lines the header of a dump takes: its meta lines and, if there are any, the blank lines
that follow them. -/
def headerLength (lines : List Text) : Nat :=
  if (metaLines lines).isEmpty then 0
  else (metaLines lines).length +
    ((lines.drop (metaLines lines).length).takeWhile isBlankLine).length

/-- Only a line that is nothing but its line break loses its first character with it. -/
theorem dropLineBreak_cons {c : Char} (hn : c ≠ '\n') (hr : c ≠ '\r') (text : Text) :
    dropLineBreak (c :: text) = c :: dropLineBreak text := by
  rw [dropLineBreak.eq_4]
  · rintro rfl rfl
    exact hn rfl
  · rintro rfl rfl
    exact hr rfl

/-- A line starts with the first character of its content. -/
theorem head?_of_dropLineBreak_eq_cons {line text : Text} {c : Char}
    (h : dropLineBreak line = c :: text) : line.head? = some c := by
  fun_cases dropLineBreak line with
  | case1 => cases h
  | case2 => cases h
  | case3 => cases h
  | case4 d text hn hr =>
    rw [dropLineBreak.eq_4 _ _ hn hr] at h
    rw [List.head?_cons, (List.cons.inj h).1]

/-- A line starts with `#` with its line break exactly if it does without. -/
theorem isMetaLine_dropLineBreak (line : Text) :
    isMetaLine (dropLineBreak line) = isMetaLine line := by
  fun_cases dropLineBreak line with
  | case1 => rfl
  | case2 => rfl
  | case3 => rfl
  | case4 c text hn hr => rw [isMetaLine, isMetaLine, List.head?_cons, List.head?_cons]

/-- A meta line is its field behind `#`, before its line break. -/
theorem dropLineBreak_of_isMetaLine {line : Text} (h : isMetaLine line = true) :
    dropLineBreak line = '#' :: (dropLineBreak line).tail := by
  cases line with
  | nil => cases h
  | cons c line =>
    have hc : c = '#' := by simpa [isMetaLine] using h
    rw [hc, dropLineBreak_cons (by decide) (by decide), List.tail_cons]

/-- A meta line is not blank. -/
theorem isBlankLine_of_isMetaLine {line : Text} (h : isMetaLine line = true) :
    isBlankLine line = false := by
  rw [isBlankLine, dropLineBreak_of_isMetaLine h]
  rfl

/-! ## One line of a scan -/

namespace Scanner

/-- A meta line adds its field to the scan, or is refused. -/
theorem feed_of_isMetaLine {raw : Text} (h : isMetaLine raw = true) (fields : List MetaField) :
    feed ⟨fields, .fields⟩ raw = match fieldOfLine raw with
      | .ok field => (.ok .more, ⟨fields ++ [field], .fields⟩)
      | .error e => (.error e, ⟨fields, .fields⟩) := by
  have hblank : isBlank (dropLineBreak raw) = false := isBlankLine_of_isMetaLine h
  have hline := dropLineBreak_of_isMetaLine h
  simp only [feed, hblank, Bool.false_eq_true, if_false, fieldOfLine]
  rw [hline]
  rfl

/-- A blank line leads on to the blank lines, or stays among them. -/
theorem feed_of_isBlankLine {raw : Text} (h : isBlankLine raw = true) (fields : List MetaField)
    (part : HeaderPart) : feed ⟨fields, part⟩ raw = (.ok .more, ⟨fields, .blanks⟩) := by
  have hblank : isBlank (dropLineBreak raw) = true := h
  cases part <;> simp only [feed, hblank, if_true]

/-- A line that is not blank ends the header after blanks, and among the fields unless it is a meta
line. -/
theorem feed_of_other {raw : Text} (h : isBlankLine raw = false) (fields : List MetaField)
    {part : HeaderPart} (hpart : part = .fields → isMetaLine raw = false) :
    feed ⟨fields, part⟩ raw = (.ok (.done raw), ⟨fields, part⟩) := by
  have hblank : isBlank (dropLineBreak raw) = false := h
  cases part with
  | blanks => simp only [feed, hblank, Bool.false_eq_true, if_false]
  | fields =>
    simp only [feed, hblank, Bool.false_eq_true, if_false]
    -- Without its line break the line starts with `#` only if it does with it.
    split
    next text hline =>
      have hhead := head?_of_dropLineBreak_eq_cons hline
      have hmeta := hpart rfl
      rw [isMetaLine, hhead] at hmeta
      cases hmeta
    · rfl

end Scanner

/-! ## Runs of lines -/

namespace Cursor

/-- The scan of a header, one line at a time. -/
theorem scanLines_eq (scanner : Scanner) (cursor : Cursor) :
    cursor.scanLines scanner = match cursor.nextRawLine with
      | .error e cursor => (scanner, .error e cursor)
      | .ok none cursor => (scanner, .ok () cursor)
      | .ok (some raw) cursor =>
        match scanner.feed raw with
        | (.error e, scanner) => (scanner, .error e cursor)
        | (.ok .more, scanner) => scanLines scanner cursor
        | (.ok (.done line), scanner) => (scanner, cursor.pushBack line) := by
  rw [scanLines]
  split
  next hread => rw [hread]
  next hread => rw [hread]
  next hread => exact hread ▸ rfl

/-- An accepted meta line is one more field. -/
theorem StandsAt.scanLines_field {cursor : Cursor} {count : Nat} {line : Bytes} {lines : List Bytes}
    (h : cursor.StandsAt count (line :: lines)) (hmeta : isMetaLine (Utf8.decode line) = true)
    {field : MetaField} (hfield : fieldOfLine (Utf8.decode line) = .ok field)
    (fields : List MetaField) :
    ∃ cursor' : Cursor, cursor.scanLines ⟨fields, .fields⟩ =
        cursor'.scanLines ⟨fields ++ [field], .fields⟩ ∧ cursor'.StandsAt (count + 1) lines := by
  obtain ⟨source, hread, hstands⟩ := h.nextRawLine_cons
  refine ⟨_, ?_, hstands⟩
  rw [scanLines_eq, hread]
  simp only [Scanner.feed_of_isMetaLine hmeta, hfield]

/-- A run of accepted meta lines is as many more fields, in the order of the lines. -/
theorem StandsAt.scanLines_fields {cursor : Cursor} {count : Nat} {front back : List Bytes}
    (h : cursor.StandsAt count (front ++ back))
    (hmeta : ∀ line ∈ front.map Utf8.decode, isMetaLine line = true) {more : List MetaField}
    (hmore : (front.map Utf8.decode).map fieldOfLine = more.map .ok) (fields : List MetaField) :
    ∃ cursor' : Cursor, cursor.scanLines ⟨fields, .fields⟩ =
        cursor'.scanLines ⟨fields ++ more, .fields⟩ ∧
      cursor'.StandsAt (count + front.length) back := by
  induction front generalizing cursor count more fields with
  | nil =>
    obtain rfl : more = [] := by simpa using hmore.symm
    exact ⟨cursor, by rw [List.append_nil], h⟩
  | cons line front ih =>
    cases more with
    | nil => cases hmore
    | cons field more =>
      -- The first line is the first of the fields; the others follow by induction.
      rw [List.map_cons, List.map_cons, List.map_cons, List.cons.injEq] at hmore
      rw [List.map_cons, List.forall_mem_cons] at hmeta
      obtain ⟨cursor₁, hstep, hstands₁⟩ := StandsAt.scanLines_field h hmeta.1 hmore.1 fields
      obtain ⟨cursor₂, hrun, hstands₂⟩ := ih hstands₁ hmeta.2 hmore.2 (fields ++ [field])
      refine ⟨cursor₂, ?_, ?_⟩
      · rw [hstep, hrun, List.append_assoc, List.singleton_append]
      · rwa [add_length_cons]

/-- A refused meta line ends the scan, with the fields before it. -/
theorem StandsAt.scanLines_refused {cursor : Cursor} {count : Nat} {line : Bytes}
    {lines : List Bytes} (h : cursor.StandsAt count (line :: lines))
    (hmeta : isMetaLine (Utf8.decode line) = true) {e : LineError}
    (hrefused : fieldOfLine (Utf8.decode line) = .error e) (fields : List MetaField) :
    ∃ cursor', cursor.scanLines ⟨fields, .fields⟩ = (⟨fields, .fields⟩, .error e cursor') ∧
      cursor'.line = count + 1 := by
  obtain ⟨source, hread, -⟩ := h.nextRawLine_cons
  refine ⟨⟨source, .empty, count + 1⟩, ?_, rfl⟩
  rw [scanLines_eq, hread]
  simp only [Scanner.feed_of_isMetaLine hmeta, hrefused]

/-- The first line that is no part of the header ends the scan and is the next one again. -/
theorem StandsAt.scanLines_other {cursor : Cursor} {count : Nat} {line : Bytes}
    {lines : List Bytes} (h : cursor.StandsAt count (line :: lines))
    (hblank : isBlankLine (Utf8.decode line) = false) {part : HeaderPart}
    (hpart : part = .fields → isMetaLine (Utf8.decode line) = false) (fields : List MetaField) :
    ∃ cursor', cursor.scanLines ⟨fields, part⟩ = (⟨fields, part⟩, .ok () cursor') ∧
      cursor'.StandsAt count (line :: lines) := by
  obtain ⟨source, hread, hstands⟩ := h.nextRawLine_cons
  obtain ⟨hpush, hback⟩ := hstands.pushBack line
  refine ⟨_, ?_, hback⟩
  rw [scanLines_eq, hread]
  simp only [Scanner.feed_of_other hblank fields hpart, hpush]

/-- From the end of the meta lines on, a scan takes the run of blank lines and nothing else. -/
theorem StandsAt.scanLines_blanks {cursor : Cursor} {count : Nat} {lines : List Bytes}
    (h : cursor.StandsAt count lines) {part : HeaderPart}
    (hpart : part = .fields → metaLines (lines.map Utf8.decode) = []) (fields : List MetaField) :
    ∃ part' cursor', cursor.scanLines ⟨fields, part⟩ = (⟨fields, part'⟩, .ok () cursor') ∧
      cursor'.StandsAt (count + ((lines.map Utf8.decode).takeWhile isBlankLine).length)
        (lines.drop ((lines.map Utf8.decode).takeWhile isBlankLine).length) := by
  induction lines generalizing cursor count part with
  | nil =>
    refine ⟨part, cursor, ?_, h⟩
    rw [scanLines_eq, h.nextRawLine_nil.1]
  | cons line lines ih =>
    rw [List.map_cons, List.takeWhile_cons]
    cases hblank : isBlankLine (Utf8.decode line) with
    | true =>
      obtain ⟨source, hread, hstands⟩ := h.nextRawLine_cons
      -- Once a blank line has been seen, a meta line would end the header too.
      have hblanks : HeaderPart.blanks = .fields → metaLines (lines.map Utf8.decode) = [] := by
        intro h
        cases h
      obtain ⟨part', cursor', hrun, hstands'⟩ := ih hstands hblanks
      refine ⟨part', cursor', ?_, ?_⟩
      · rw [scanLines_eq, hread]
        simp only [Scanner.feed_of_isBlankLine hblank, hrun]
      · rwa [if_pos rfl, add_length_cons, List.length_cons, List.drop_succ_cons]
    | false =>
      -- The first line that is not blank ends the header; among the fields it is no meta line.
      have hother : part = .fields → isMetaLine (Utf8.decode line) = false := by
        intro hfields
        have hnone := hpart hfields
        rw [List.map_cons, metaLines, List.takeWhile_cons] at hnone
        split at hnone
        · cases hnone
        next hmeta => simpa using hmeta
      obtain ⟨cursor', hrun, hstands⟩ := StandsAt.scanLines_other h hblank hother fields
      exact ⟨part, cursor', hrun, hstands⟩

end Cursor

end LinkDump
