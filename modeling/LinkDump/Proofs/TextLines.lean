import LinkDump.Proofs.HeaderScan
import LinkDump.Report.Listing

/-! # Text in bytes and back
A text that is encoded is decoded to itself, whatever bytes follow it, so that a dump may as well be
thought of as a text where its bytes are well formed. Its lines are then the lines of that text,
`textLines`, since no character but the newline has the byte of a newline, and it starts with a byte
order mark only if the text starts with U+FEFF. -/

namespace LinkDump

namespace Utf8

/-! ## One character -/

/-- A number that fits into a byte is the number of that byte. -/
theorem toNat_ofNat_of_lt {n : Nat} (h : n < 0x100) : (UInt8.ofNat n).toNat = n :=
  UInt8.toNat_ofNat_of_lt' h

/-- A byte inside a character, with six bits of it. -/
def tailByte (bits : Nat) : UInt8 := UInt8.ofNat (bits % 64 + 128)

/-- A byte inside a character has the low bits, and the mark of such a byte. -/
theorem toNat_tailByte (bits : Nat) : (tailByte bits).toNat = bits % 64 + 128 :=
  toNat_ofNat_of_lt (by omega)

/-- The low bits of a byte inside a character are those that it was made from. -/
theorem toNat_tailByte_mod (bits : Nat) : (tailByte bits).toNat % 64 = bits % 64 := by
  rw [toNat_tailByte]
  omega

/-- A byte inside a character may stand there. -/
theorem any_contains_tailByte (bits : Nat) : Continuation.any.contains (tailByte bits) = true := by
  rw [Continuation.contains_iff, toNat_tailByte]
  simp only [Continuation.any, UInt8.reduceToNat]
  omega

/-- The last byte of a character says it. -/
theorem decodeFrom_tail_zero {next : Continuation} {bits : Nat}
    (h : next.contains (tailByte bits) = true) (value : Nat) (bytes : Bytes) :
    decodeFrom (.tail 0 next value) (tailByte bits :: bytes) =
      Char.ofNat (value * 64 + bits % 64) :: decode bytes := by
  rw [decodeFrom, Pending.step_tail_zero h, toNat_tailByte_mod, List.singleton_append, decode]

/-- A byte before the last one adds its bits. -/
theorem decodeFrom_tail_succ {next : Continuation} {bits : Nat}
    (h : next.contains (tailByte bits) = true) (left value : Nat) (bytes : Bytes) :
    decodeFrom (.tail (left + 1) next value) (tailByte bits :: bytes) =
      decodeFrom (.tail left .any (value * 64 + bits % 64)) bytes := by
  rw [decodeFrom, Pending.step_tail_succ h, toNat_tailByte_mod, List.nil_append]

/-- The first byte of two gives its bits, and asks for one more byte. -/
theorem lead_of_two (bits : Nat) (hlow : 2 ≤ bits) (hhigh : bits < 32) :
    lead (UInt8.ofNat (bits + 192)) = ([], .tail 0 .any bits) := by
  have hall : ∀ bits < 32, 2 ≤ bits →
      lead (UInt8.ofNat (bits + 192)) = ([], .tail 0 .any bits) := by
    decide
  exact hall bits hhigh hlow

/-- The first of three bytes admits the second one, unless fewer bytes would do or the character
would be a surrogate. -/
theorem exists_lead_of_three (bits more : Nat) (hbits : bits < 16)
    (hlow : bits = 0 → 32 ≤ more % 64) (hsurrogate : bits = 13 → more % 64 < 32) :
    ∃ next, lead (UInt8.ofNat (bits + 224)) = ([], .tail 1 next bits) ∧
      next.contains (tailByte more) = true := by
  by_cases hzero : bits = 0
  · -- Behind `0xE0` the second byte leaves out what two bytes would do for.
    subst hzero
    refine ⟨_, rfl, ?_⟩
    have := hlow rfl
    rw [Continuation.contains_iff, toNat_tailByte]
    simp only [UInt8.reduceToNat]
    omega
  · by_cases hthirteen : bits = 13
    · -- Behind `0xED` it leaves out the surrogates.
      subst hthirteen
      refine ⟨_, rfl, ?_⟩
      have := hsurrogate rfl
      rw [Continuation.contains_iff, toNat_tailByte]
      simp only [UInt8.reduceToNat]
      omega
    · have hall : ∀ bits < 16, bits ≠ 0 → bits ≠ 13 →
          lead (UInt8.ofNat (bits + 224)) = ([], .tail 1 .any bits) := by
        decide
      exact ⟨.any, hall bits hbits hzero hthirteen, any_contains_tailByte more⟩

/-- The first of four bytes admits the second one, unless fewer bytes would do or the character
would be above the last code point. -/
theorem exists_lead_of_four (bits more : Nat) (hbits : bits < 5)
    (hlow : bits = 0 → 16 ≤ more % 64) (hhigh : bits = 4 → more % 64 < 16) :
    ∃ next, lead (UInt8.ofNat (bits + 240)) = ([], .tail 2 next bits) ∧
      next.contains (tailByte more) = true := by
  by_cases hzero : bits = 0
  · -- Behind `0xF0` the second byte leaves out what three bytes would do for.
    subst hzero
    refine ⟨_, rfl, ?_⟩
    have := hlow rfl
    rw [Continuation.contains_iff, toNat_tailByte]
    simp only [UInt8.reduceToNat]
    omega
  · by_cases hfour : bits = 4
    · -- Behind `0xF4` it leaves out what is above the last code point.
      subst hfour
      refine ⟨_, rfl, ?_⟩
      have := hhigh rfl
      rw [Continuation.contains_iff, toNat_tailByte]
      simp only [UInt8.reduceToNat]
      omega
    · have hall : ∀ bits < 5, bits ≠ 0 → bits ≠ 4 →
          lead (UInt8.ofNat (bits + 240)) = ([], .tail 2 .any bits) := by
        decide
      exact ⟨.any, hall bits hbits hzero hfour, any_contains_tailByte more⟩

/-- Every character has bytes. -/
theorem utf8EncodeChar_ne_nil (c : Char) : String.utf8EncodeChar c ≠ [] := by
  apply List.ne_nil_of_length_pos
  rw [String.length_utf8EncodeChar]
  exact c.utf8Size_pos

/-- A character from `0x80` on, below `0x800`, has two bytes. -/
theorem utf8EncodeChar_of_two {c : Char} (hlow : 0x80 ≤ c.toNat) (hhigh : c.toNat < 0x800) :
    String.utf8EncodeChar c = [UInt8.ofNat (c.toNat / 64 + 192), tailByte c.toNat] := by
  have h₁ : ¬c.val.toNat ≤ 0x7F := Nat.not_le.mpr hlow
  have h₂ : c.val.toNat ≤ 0x7FF := Nat.le_of_lt_succ hhigh
  have hbits : c.toNat / 64 % 32 = c.toNat / 64 := Nat.mod_eq_of_lt (by omega)
  simp only [String.utf8EncodeChar, if_neg h₁, if_pos h₂]
  change [UInt8.ofNat (c.toNat / 64 % 32 + 192), _] = _
  rw [hbits]
  rfl

/-- A character from `0x800` on, below `0x10000`, has three bytes. -/
theorem utf8EncodeChar_of_three {c : Char} (hlow : 0x800 ≤ c.toNat) (hhigh : c.toNat < 0x10000) :
    String.utf8EncodeChar c =
      [UInt8.ofNat (c.toNat / 4096 + 224), tailByte (c.toNat / 64), tailByte c.toNat] := by
  have h₁ : ¬c.val.toNat ≤ 0x7F := Nat.not_le.mpr (Nat.lt_of_lt_of_le (by decide) hlow)
  have h₂ : ¬c.val.toNat ≤ 0x7FF := Nat.not_le.mpr hlow
  have h₃ : c.val.toNat ≤ 0xFFFF := Nat.le_of_lt_succ hhigh
  have hbits : c.toNat / 4096 % 16 = c.toNat / 4096 := Nat.mod_eq_of_lt (by omega)
  simp only [String.utf8EncodeChar, if_neg h₁, if_neg h₂, if_pos h₃]
  change [UInt8.ofNat (c.toNat / 4096 % 16 + 224), _, _] = _
  rw [hbits]
  rfl

/-- A character from `0x10000` on has four bytes. -/
theorem utf8EncodeChar_of_four {c : Char} (hlow : 0x10000 ≤ c.toNat) (hhigh : c.toNat < 0x110000) :
    String.utf8EncodeChar c = [UInt8.ofNat (c.toNat / 262144 + 240), tailByte (c.toNat / 4096),
      tailByte (c.toNat / 64), tailByte c.toNat] := by
  have h₁ : ¬c.val.toNat ≤ 0x7F := Nat.not_le.mpr (Nat.lt_of_lt_of_le (by decide) hlow)
  have h₂ : ¬c.val.toNat ≤ 0x7FF := Nat.not_le.mpr (Nat.lt_of_lt_of_le (by decide) hlow)
  have h₃ : ¬c.val.toNat ≤ 0xFFFF := Nat.not_le.mpr hlow
  have hbits : c.toNat / 262144 % 8 = c.toNat / 262144 := Nat.mod_eq_of_lt (by omega)
  simp only [String.utf8EncodeChar, if_neg h₁, if_neg h₂, if_neg h₃]
  change [UInt8.ofNat (c.toNat / 262144 % 8 + 240), _, _, _] = _
  rw [hbits]
  rfl

/-- A character is decoded from its bytes, whatever follows them. -/
theorem decode_utf8EncodeChar_append (c : Char) (bytes : Bytes) :
    decode (String.utf8EncodeChar c ++ bytes) = c :: decode bytes := by
  have hvalid : c.toNat < 0xD800 ∨ 0xDFFF < c.toNat ∧ c.toNat < 0x110000 := c.valid
  -- One case for each number of bytes. The bits that they carry are put together again.
  by_cases hone : c.toNat < 0x80
  · rw [utf8EncodeChar_of_ascii hone, List.singleton_append]
    exact decode_append_byte hone [] bytes
  by_cases htwo : c.toNat < 0x800
  · have hlead := lead_of_two (c.toNat / 64) (by omega) (by omega)
    have hvalue : c.toNat / 64 * 64 + c.toNat % 64 = c.toNat := by omega
    rw [utf8EncodeChar_of_two (by omega) htwo, List.cons_append, List.singleton_append, decode,
      decodeFrom, Pending.step, hlead, List.nil_append,
      decodeFrom_tail_zero (any_contains_tailByte _), hvalue, Char.ofNat_toNat]
  by_cases hthree : c.toNat < 0x10000
  · obtain ⟨next, hlead, hnext⟩ := exists_lead_of_three (c.toNat / 4096) (c.toNat / 64)
      (by omega) (by omega) (by omega)
    have hvalue : (c.toNat / 4096 * 64 + c.toNat / 64 % 64) * 64 + c.toNat % 64 = c.toNat := by
      omega
    rw [utf8EncodeChar_of_three (by omega) hthree, List.cons_append, List.cons_append,
      List.singleton_append, decode, decodeFrom, Pending.step, hlead, List.nil_append,
      decodeFrom_tail_succ hnext, decodeFrom_tail_zero (any_contains_tailByte _), hvalue,
      Char.ofNat_toNat]
  · obtain ⟨next, hlead, hnext⟩ := exists_lead_of_four (c.toNat / 262144)
      (c.toNat / 4096) (by omega) (by omega) (by omega)
    have hvalue : ((c.toNat / 262144 * 64 + c.toNat / 4096 % 64) * 64 + c.toNat / 64 % 64) * 64 +
        c.toNat % 64 = c.toNat := by
      omega
    rw [utf8EncodeChar_of_four (by omega) (by omega), List.cons_append, List.cons_append,
      List.cons_append, List.singleton_append, decode, decodeFrom, Pending.step, hlead,
      List.nil_append, decodeFrom_tail_succ hnext,
      decodeFrom_tail_succ (any_contains_tailByte _),
      decodeFrom_tail_zero (any_contains_tailByte _), hvalue, Char.ofNat_toNat]

/-! ## Texts -/

/-- A text is decoded from its bytes, whatever follows them. -/
theorem decode_encode_append (text : Text) (bytes : Bytes) :
    decode (encode text ++ bytes) = text ++ decode bytes := by
  induction text with
  | nil => rfl
  | cons c text ih =>
    rw [encode_cons, List.append_assoc, decode_utf8EncodeChar_append, ih, List.cons_append]

/-- A text is decoded from its bytes. -/
theorem decode_encode (text : Text) : decode (encode text) = text := by
  have happend := decode_encode_append text []
  rwa [List.append_nil, decode_nil, List.append_nil] at happend

/-- Only U+FEFF has the bytes of a byte order mark. -/
theorem head?_of_mark_isPrefix {text : Text} (h : byteOrderMark <+: encode text) :
    text.head? = some '\uFEFF' := by
  obtain ⟨rest, hrest⟩ := h
  have hmark : byteOrderMark = String.utf8EncodeChar '\uFEFF' := by decide
  rw [← decode_encode text, ← hrest, hmark, decode_utf8EncodeChar_append]
  rfl

/-- Only the newline has the byte of a newline. -/
theorem newline_not_mem_utf8EncodeChar {c : Char} (h : c ≠ '\n') :
    newline ∉ String.utf8EncodeChar c := by
  intro hmem
  obtain ⟨i, hi⟩ := List.mem_iff_getElem?.mp hmem
  exact h ((getElem?_utf8EncodeChar_eq_some_iff (a := '\n') (by decide)).mp hi).2

end Utf8

/-! ## Lines -/

/-- The lines of a text, each with its newline; the last one may lack it. -/
def textLines : Text → List Text
  | [] => []
  | c :: text =>
    if c = '\n' then [c] :: textLines text
    else match textLines text with
      | [] => [[c]]
      | line :: lines => (c :: line) :: lines

@[simp] theorem textLines_nil : textLines [] = [] := rfl

/-- A newline in front is a line of its own. -/
theorem textLines_newline (text : Text) : textLines ('\n' :: text) = ['\n'] :: textLines text := rfl

/-- Any other character in front begins the first line. -/
theorem textLines_cons {c : Char} (h : c ≠ '\n') (text : Text) :
    textLines (c :: text) = match textLines text with
      | [] => [[c]]
      | line :: lines => (c :: line) :: lines := by
  rw [textLines, if_neg h]

/-- The first line of a text starts as the text does. -/
theorem head?_textLines (text : Text) :
    (textLines text).head?.bind List.head? = text.head? := by
  cases text with
  | nil => rfl
  | cons c text =>
    by_cases hc : c = '\n'
    · rw [hc, textLines_newline]
      rfl
    · rw [textLines_cons hc]
      cases textLines text <;> rfl

/-- Cutting a text into lines loses none of it. -/
theorem flatten_textLines (text : Text) : (textLines text).flatten = text := by
  induction text with
  | nil => rfl
  | cons c text ih =>
    by_cases hc : c = '\n'
    · rw [hc, textLines_newline, List.flatten_cons, ih]
      rfl
    · rw [textLines_cons hc]
      cases hlines : textLines text with
      | nil =>
        rw [hlines] at ih
        rw [← ih]
        rfl
      | cons line lines =>
        rw [hlines, List.flatten_cons] at ih
        rw [List.flatten_cons, List.cons_append, ih]

/-- Only the last line may lack its newline. -/
theorem getLast?_of_mem_dropLast_textLines {text line : Text}
    (h : line ∈ (textLines text).dropLast) : line.getLast? = some '\n' := by
  induction text generalizing line with
  | nil => cases h
  | cons c text ih =>
    by_cases hc : c = '\n'
    · rw [hc, textLines_newline] at h
      cases hlines : textLines text with
      | nil =>
        rw [hlines] at h
        cases h
      | cons next lines =>
        rw [hlines, List.dropLast_cons_cons, List.mem_cons, ← hlines] at h
        rcases h with rfl | h
        · rfl
        · exact ih h
    · rw [textLines_cons hc] at h
      cases hlines : textLines text with
      | nil =>
        rw [hlines] at h
        cases h
      | cons first lines =>
        rw [hlines] at h ih
        cases lines with
        | nil => cases h
        | cons next lines =>
          rw [List.dropLast_cons_cons] at h ih
          -- The first line goes on to the newline that it has without `c`.
          rcases List.mem_cons.mp h with rfl | h
          · have hfirst := ih List.mem_cons_self
            rw [List.getLast?_cons, hfirst]
            rfl
          · exact ih (List.mem_cons_of_mem _ h)

/-- Bytes without a newline go to the front of the first line. -/
theorem physicalLines_append_of_not_mem {front : Bytes} (hne : front ≠ []) (h : newline ∉ front)
    (bytes : Bytes) :
    physicalLines (front ++ bytes) = match physicalLines bytes with
      | [] => [front]
      | line :: lines => (front ++ line) :: lines := by
  induction front with
  | nil => exact absurd rfl hne
  | cons b front ih =>
    rw [List.mem_cons, not_or] at h
    rw [List.cons_append, physicalLines, if_neg (Ne.symm h.1)]
    cases front with
    | nil =>
      rw [List.nil_append]
      cases physicalLines bytes <;> rfl
    | cons d front =>
      rw [ih (List.cons_ne_nil d front) h.2]
      cases physicalLines bytes <;> rfl

/-- Encoding a text does not change where its lines end. -/
theorem physicalLines_encode (text : Text) :
    physicalLines (Utf8.encode text) = (textLines text).map Utf8.encode := by
  induction text with
  | nil => rfl
  | cons c text ih =>
    by_cases hc : c = '\n'
    · subst hc
      rw [textLines_newline, List.map_cons, ← ih]
      rfl
    · rw [Utf8.encode_cons, physicalLines_append_of_not_mem (Utf8.utf8EncodeChar_ne_nil c)
        (Utf8.newline_not_mem_utf8EncodeChar hc), ih, textLines_cons hc]
      cases textLines text with
      | nil => simp
      | cons line lines => simp

/-- The lines of a dump that is the encoding of a text are the lines of that text. -/
theorem dumpTexts_encode {text : Text} (h : text.head? ≠ some '\uFEFF') :
    dumpTexts (Utf8.encode text) = textLines text := by
  rw [dumpTexts, dumpLines, dropMark_of_unmarked (mt Utf8.head?_of_mark_isPrefix h),
    physicalLines_encode, List.map_map]
  have hdecode : Utf8.decode ∘ Utf8.encode = id := funext Utf8.decode_encode
  rw [hdecode, List.map_id]

/-! ## Pieces between newlines -/

/-- A newline in front has nothing before it. -/
theorem splitOn_newline (text : Text) :
    ('\n' :: text).splitOn '\n' = [] :: text.splitOn '\n' := by
  rw [List.splitOn, List.splitOnP_cons_eq_if_modifyHead]
  rfl

/-- Any other character in front belongs to the first piece. -/
theorem splitOn_cons_of_ne {c : Char} (h : c ≠ '\n') (text : Text) :
    (c :: text).splitOn '\n' = (text.splitOn '\n').modifyHead (c :: ·) := by
  have hc : (c == '\n') = false := by simpa using h
  rw [List.splitOn, List.splitOnP_cons_eq_if_modifyHead, hc]
  rfl

/-- Even an empty text has a piece. -/
theorem exists_splitOn_eq_cons (text : Text) :
    ∃ first more, text.splitOn '\n' = first :: more :=
  List.exists_cons_of_ne_nil (List.splitOnP_ne_nil (· == '\n') text)

/-- A text without a newline goes to the front of the first piece. -/
theorem splitOn_append_of_not_mem {front : Text} (h : '\n' ∉ front) (text : Text) :
    (front ++ text).splitOn '\n' = (text.splitOn '\n').modifyHead (front ++ ·) := by
  obtain ⟨first, more, hsplit⟩ := exists_splitOn_eq_cons text
  induction front with
  | nil =>
    rw [List.nil_append, hsplit]
    rfl
  | cons c front ih =>
    rw [List.mem_cons, not_or] at h
    rw [List.cons_append, splitOn_cons_of_ne (Ne.symm h.1), ih h.2, hsplit]
    rfl

/-- A text without a newline is one piece. -/
theorem splitOn_of_not_mem {text : Text} (h : '\n' ∉ text) : text.splitOn '\n' = [text] := by
  have hsplit := splitOn_append_of_not_mem h []
  rw [List.append_nil] at hsplit
  rw [hsplit]
  simp

/-- The pieces of a text, each closed with a newline, are the text with a newline behind it. -/
theorem flatten_splitOn (text : Text) :
    ((text.splitOn '\n').map (· ++ ['\n'])).flatten = text ++ ['\n'] := by
  induction text with
  | nil => rfl
  | cons c text ih =>
    by_cases hc : c = '\n'
    · rw [hc, splitOn_newline, List.map_cons, List.flatten_cons, ih]
      rfl
    · obtain ⟨first, more, hsplit⟩ := exists_splitOn_eq_cons text
      rw [hsplit, List.map_cons, List.flatten_cons] at ih
      rw [splitOn_cons_of_ne hc, hsplit, List.cons_append, ← ih]
      rfl

/-- A text with a newline behind it has its pieces as lines. -/
theorem textLines_append_newline (text rest : Text) :
    textLines (text ++ '\n' :: rest) =
      (text.splitOn '\n').map (· ++ ['\n']) ++ textLines rest := by
  induction text with
  | nil => rfl
  | cons c text ih =>
    by_cases hc : c = '\n'
    · rw [hc, List.cons_append, textLines_newline, ih, splitOn_newline]
      rfl
    · obtain ⟨first, more, hsplit⟩ := exists_splitOn_eq_cons text
      rw [List.cons_append, textLines_cons hc, ih, splitOn_cons_of_ne hc, hsplit]
      rfl

/-- The lines of some texts, each closed with a newline, are those of each text in turn. -/
theorem textLines_unlines (texts : List Text) :
    textLines (unlines texts) =
      texts.flatMap fun text => (text.splitOn '\n').map (· ++ ['\n']) := by
  induction texts with
  | nil => rfl
  | cons text texts ih => rw [unlines_cons, textLines_append_newline, ih, List.flatMap_cons]

end LinkDump
