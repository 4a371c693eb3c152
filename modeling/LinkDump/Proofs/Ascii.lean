import LinkDump.Text.Utf8
import Mathlib.Data.List.Basic

/-! # Characters below `0x80`
Such a character is one byte, and no other character has a byte below `0x80`; so an ASCII character
is found in the bytes of a text exactly where it is found in the text. Decoding keeps to that also
on bytes that are not well formed: a byte from `0x80` on never begins a text with an ASCII
character. The invariant behind it is `Pending.Sound`: whatever bytes follow inside a character,
they complete a valid one that is not ASCII. -/

namespace LinkDump

namespace Utf8

/-! ## Encoding -/

/-- The character of a code point has that number. -/
theorem toNat_ofNat {n : Nat} (h : n.isValidChar) : (Char.ofNat n).toNat = n := by
  rw [Char.ofNat, dif_pos h]
  rfl

/-- A character below `0x80` is its own byte. -/
theorem utf8EncodeChar_of_ascii {c : Char} (hc : c.toNat < 0x80) :
    String.utf8EncodeChar c = [UInt8.ofNat c.toNat] := by
  have hle : c.val.toNat ≤ 0x7f := Nat.le_of_lt_succ hc
  unfold String.utf8EncodeChar
  rw [if_pos hle]
  rfl

/-- A character from `0x80` on has no byte below `0x80`. -/
theorem le_of_mem_utf8EncodeChar {c : Char} (hc : 0x80 ≤ c.toNat) {b : UInt8}
    (hb : b ∈ String.utf8EncodeChar c) : 0x80 ≤ b := by
  have hgt : ¬c.val.toNat ≤ 0x7f := Nat.not_le.mpr hc
  -- Each byte is a marker of at least `0x80` plus some of the bits.
  have hbyte : ∀ bits marker : Nat, 0x80 ≤ marker → bits < 0x40 → marker + bits < 0x100 →
      0x80 ≤ UInt8.ofNat (bits + marker) := by
    intro bits marker hmarker hbits hsum
    rw [UInt8.le_iff_toNat_le, UInt8.toNat_ofNat_of_lt' (by simp only [UInt8.size]; omega)]
    simp only [UInt8.reduceToNat]
    omega
  simp only [String.utf8EncodeChar, if_neg hgt] at hb
  split at hb
  · simp only [List.mem_cons, List.not_mem_nil, or_false] at hb
    rcases hb with rfl | rfl <;> apply hbyte <;> omega
  · split at hb
    · simp only [List.mem_cons, List.not_mem_nil, or_false] at hb
      rcases hb with rfl | rfl | rfl <;> apply hbyte <;> omega
    · simp only [List.mem_cons, List.not_mem_nil, or_false] at hb
      rcases hb with rfl | rfl | rfl | rfl <;> apply hbyte <;> omega

/-- The byte of an ASCII character is its code point. -/
theorem toNat_byte_of_ascii {a : Char} (ha : a.toNat < 0x80) :
    (UInt8.ofNat a.toNat).toNat = a.toNat :=
  UInt8.toNat_ofNat_of_lt' (Nat.lt_trans ha (by decide))

/-- The byte of an ASCII character stands in the encoding of no other character. -/
theorem getElem?_utf8EncodeChar_eq_some_iff {c a : Char} (ha : a.toNat < 0x80) {i : Nat} :
    (String.utf8EncodeChar c)[i]? = some (UInt8.ofNat a.toNat) ↔ i = 0 ∧ c = a := by
  constructor
  · intro h
    have hc : c.toNat < 0x80 := by
      apply Nat.lt_of_not_le
      intro hge
      have hle := le_of_mem_utf8EncodeChar hge (List.mem_of_getElem? h)
      rw [UInt8.le_iff_toNat_le, toNat_byte_of_ascii ha] at hle
      exact absurd ha (Nat.not_lt.mpr hle)
    rw [utf8EncodeChar_of_ascii hc, List.getElem?_singleton] at h
    split at h
    next hi =>
      refine ⟨hi, ?_⟩
      have hnat := congrArg UInt8.toNat (Option.some.inj h)
      rw [toNat_byte_of_ascii hc, toNat_byte_of_ascii ha] at hnat
      rw [← Char.ofNat_toNat c, hnat, Char.ofNat_toNat]
    · cases h
  · rintro ⟨rfl, rfl⟩
    rw [utf8EncodeChar_of_ascii ha]
    rfl

/-- A text starts with an ASCII character exactly if its bytes do. -/
theorem head?_encode_eq_some_iff {a : Char} (ha : a.toNat < 0x80) {text : Text} :
    (encode text).head? = some (UInt8.ofNat a.toNat) ↔ text.head? = some a := by
  cases text with
  | nil => simp
  | cons c text =>
    rw [encode_cons, List.head?_eq_getElem?, List.getElem?_append_left (by simp [c.utf8Size_pos]),
      getElem?_utf8EncodeChar_eq_some_iff ha]
    simp

/-! ## The states of decoding -/

/-- A byte may come next exactly if it lies between the two ends of the range. -/
theorem Continuation.contains_iff {range : Continuation} {b : UInt8} :
    range.contains b = true ↔ range.low.toNat ≤ b.toNat ∧ b.toNat ≤ range.high.toNat := by
  simp [contains, UInt8.le_iff_toNat_le]

/-- The last byte of a character gives that character. -/
theorem Pending.step_tail_zero {next : Continuation} {b : UInt8} (h : next.contains b = true)
    (value : Nat) :
    (tail 0 next value).step b = ([Char.ofNat (value * 64 + b.toNat % 64)], .nothing) := by
  rw [step, if_pos h]

/-- A byte inside a character adds its bits, and more bytes are awaited. -/
theorem Pending.step_tail_succ {next : Continuation} {b : UInt8} (h : next.contains b = true)
    (left value : Nat) :
    (tail (left + 1) next value).step b = ([], .tail left .any (value * 64 + b.toNat % 64)) := by
  rw [step, if_pos h]

/-- A byte that cannot come next breaks the character off, and begins anew. -/
theorem Pending.step_tail_of_not_contains {next : Continuation} {b : UInt8}
    (h : ¬next.contains b = true) (left value : Nat) :
    (tail left next value).step b = (replacement :: (lead b).1, (lead b).2) := by
  cases left <;> rw [step, if_neg h]

/-- A first byte is a character, is replaced, or begins a character that other bytes go on with. -/
theorem lead_cases (b : UInt8) :
    (b < 0x80 ∧ lead b = ([Char.ofNat b.toNat], .nothing)) ∨ lead b = ([replacement], .nothing) ∨
      ∃ left next value, lead b = ([], .tail left next value) := by
  unfold lead
  split
  next hb => exact .inl ⟨hb, rfl⟩
  · apply Or.inr
    repeat' split
    all_goals first | exact .inl rfl | exact .inr ⟨_, _, _, rfl⟩

/-- However a character is completed, it is a valid one from `0x80` on: the next byte lies in
`next`, `left` more follow it, and `value` holds the bits read so far. -/
def CompletesAbove : Nat → Continuation → Nat → Prop
  | 0, next, value => ∀ b, next.contains b = true →
      (value * 64 + b.toNat % 64).isValidChar ∧ 0x80 ≤ value * 64 + b.toNat % 64
  | left + 1, next, value => ∀ b, next.contains b = true →
      CompletesAbove left .any (value * 64 + b.toNat % 64)

/-- The invariant of decoding: a character at hand is completed by a valid one from `0x80` on. -/
def Pending.Sound : Pending → Prop
  | .nothing => True
  | .tail left next value => CompletesAbove left next value

/-- Between two characters there is none at hand. -/
theorem sound_nothing : Pending.nothing.Sound := trivial

/-- A first byte leaves room for sound characters only. -/
theorem sound_lead (b : UInt8) : (lead b).2.Sound := by
  unfold lead
  simp only [UInt8.lt_iff_toNat_lt, ← UInt8.toNat_inj]
  -- One case for each class of first bytes; in each the completed value is bounded on both sides.
  repeat' split
  all_goals
    simp only [Pending.Sound, CompletesAbove, Continuation.contains_iff, Continuation.any,
      Nat.isValidChar, UInt8.reduceToNat] at *
  all_goals intros
  all_goals omega

/-! ## Decoding -/

/-- A byte below `0x80` is the character of its number. -/
theorem ofNat_toNat_eq_iff {a : Char} (ha : a.toNat < 0x80) {b : UInt8} (hb : b < 0x80) :
    Char.ofNat b.toNat = a ↔ b = UInt8.ofNat a.toNat := by
  constructor
  · rintro rfl
    have hvalid : b.toNat.isValidChar := .inl (Nat.lt_trans hb (by decide))
    rw [toNat_ofNat hvalid, UInt8.ofNat_toNat]
  · rintro rfl
    rw [toNat_byte_of_ascii ha, Char.ofNat_toNat]

/-- Inside a character something is still to be said, whatever bytes follow. -/
theorem decodeFrom_tail_ne_nil (left : Nat) (next : Continuation) (value : Nat) (bytes : Bytes) :
    decodeFrom (.tail left next value) bytes ≠ [] := by
  induction bytes generalizing left next value with
  | nil => exact List.cons_ne_nil _ _
  | cons b bytes ih =>
    rw [decodeFrom]
    by_cases hb : next.contains b = true
    · cases left with
      | zero =>
        rw [Pending.step_tail_zero hb]
        exact List.cons_ne_nil _ _
      | succ left =>
        rw [Pending.step_tail_succ hb]
        exact ih left .any _
    · rw [Pending.step_tail_of_not_contains hb]
      exact List.cons_ne_nil _ _

/-- Bytes are read as a text of at least one character, if there are any. -/
theorem decode_eq_nil_iff {bytes : Bytes} : decode bytes = [] ↔ bytes = [] := by
  constructor
  · intro h
    cases bytes with
    | nil => rfl
    | cons b bytes =>
      rw [decode, decodeFrom, Pending.step, List.append_eq_nil_iff] at h
      rcases lead_cases b with ⟨-, hlead⟩ | hlead | ⟨left, next, value, hlead⟩
      · rw [hlead] at h
        exact absurd h.1 (List.cons_ne_nil _ _)
      · rw [hlead] at h
        exact absurd h.1 (List.cons_ne_nil _ _)
      · rw [hlead] at h
        exact absurd h.2 (decodeFrom_tail_ne_nil left next value bytes)
  · rintro rfl
    rfl

/-! ## Where ASCII characters come from -/

/-- No ASCII character is the replacement character. -/
theorem ne_replacement {a : Char} (ha : a.toNat < 0x80) : a ≠ replacement := by
  rintro rfl
  exact absurd ha (by decide)

/-- The end of the bytes adds no ASCII character. -/
theorem not_mem_close (pending : Pending) {a : Char} (ha : a.toNat < 0x80) :
    a ∉ pending.close := by
  cases pending with
  | nothing => exact List.not_mem_nil
  | tail left next value =>
    rw [Pending.close, List.mem_singleton]
    exact ne_replacement ha

/-- An ASCII character that a first byte completes is that byte. -/
theorem eq_of_mem_lead {a : Char} (ha : a.toNat < 0x80) {b : UInt8} (h : a ∈ (lead b).1) :
    b = UInt8.ofNat a.toNat := by
  rcases lead_cases b with ⟨hb, hlead⟩ | hlead | ⟨left, next, value, hlead⟩
  · rw [hlead, List.mem_singleton] at h
    exact (ofNat_toNat_eq_iff ha hb).mp h.symm
  · rw [hlead, List.mem_singleton] at h
    exact absurd h (ne_replacement ha)
  · rw [hlead] at h
    exact absurd h List.not_mem_nil

namespace Pending.Sound

variable {pending : Pending} (h : pending.Sound) (b : UInt8)
include h

/-- One byte: decoding stays sound. -/
theorem step : (pending.step b).2.Sound := by
  cases pending with
  | nothing => exact sound_lead b
  | tail left next value =>
    by_cases hb : next.contains b = true
    · cases left with
      | zero =>
        rw [step_tail_zero hb]
        trivial
      | succ left =>
        rw [step_tail_succ hb]
        exact h b hb
    · rw [step_tail_of_not_contains hb]
      exact sound_lead b

/-- One byte: an ASCII character that it adds is the byte itself. -/
theorem eq_of_mem_step {a : Char} (ha : a.toNat < 0x80) (hmem : a ∈ (pending.step b).1) :
    b = UInt8.ofNat a.toNat := by
  cases pending with
  | nothing => exact eq_of_mem_lead ha hmem
  | tail left next value =>
    by_cases hb : next.contains b = true
    · cases left with
      | zero =>
        -- The character that is completed is not ASCII.
        rw [step_tail_zero hb, List.mem_singleton] at hmem
        obtain ⟨hvalid, hle⟩ := h b hb
        rw [hmem, toNat_ofNat hvalid] at ha
        omega
      | succ left =>
        rw [step_tail_succ hb] at hmem
        cases hmem
    · rw [step_tail_of_not_contains hb] at hmem
      rcases List.mem_cons.mp hmem with rfl | hmem
      · exact absurd rfl (ne_replacement ha)
      · exact eq_of_mem_lead ha hmem

end Pending.Sound

/-- The byte of an ASCII character is below `0x80`. -/
theorem byte_lt {a : Char} (ha : a.toNat < 0x80) : UInt8.ofNat a.toNat < 0x80 := by
  rw [UInt8.lt_iff_toNat_lt, toNat_byte_of_ascii ha]
  exact ha

/-- The byte of an ASCII character closes what is pending, and then adds that character. -/
theorem step_of_byte (pending : Pending) {a : Char} (ha : a.toNat < 0x80) :
    pending.step (UInt8.ofNat a.toNat) = (pending.close ++ [a], .nothing) := by
  rw [pending.step_of_ascii (byte_lt ha), toNat_byte_of_ascii ha, Char.ofNat_toNat]

/-- Bytes before that of an ASCII character, and those after it, are decoded on their own. -/
theorem decode_append_byte {a : Char} (ha : a.toNat < 0x80) (front back : Bytes) :
    decode (front ++ UInt8.ofNat a.toNat :: back) = decode front ++ a :: decode back := by
  rw [decode, decodeFrom_append_cons_of_ascii _ _ _ (byte_lt ha), decode, decode, decodeFrom,
    step_of_byte _ ha]
  rfl

/-- A text is read with an ASCII character at some place only from bytes with its byte at some
place, and what is before and after it in the text is read from what is before and after it in the
bytes. -/
theorem exists_of_decodeFrom_eq_append_cons {pending : Pending} (h : pending.Sound) {a : Char}
    (ha : a.toNat < 0x80) {bytes : Bytes} {before after : Text}
    (hread : decodeFrom pending bytes = before ++ a :: after) :
    ∃ front back, bytes = front ++ UInt8.ofNat a.toNat :: back ∧
      decodeFrom pending front = before ∧ decode back = after := by
  induction bytes generalizing pending before with
  | nil =>
    have hmem : a ∈ pending.close := by
      change pending.close = _ at hread
      simp [hread]
    exact absurd hmem (not_mem_close pending ha)
  | cons b bytes ih =>
    rw [decodeFrom] at hread
    by_cases hb : b = UInt8.ofNat a.toNat ∧ before = pending.close
    · -- The byte is the one that is looked for.
      obtain ⟨rfl, rfl⟩ := hb
      rw [step_of_byte pending ha, List.append_assoc, List.append_cancel_left_eq,
        List.singleton_append, List.cons.injEq] at hread
      exact ⟨[], bytes, rfl, rfl, hread.2⟩
    · -- The character stands behind all that this byte adds.
      obtain ⟨rest, rfl, hrest⟩ : ∃ rest, before = (pending.step b).1 ++ rest ∧
          decodeFrom (pending.step b).2 bytes = rest ++ a :: after := by
        rcases List.append_eq_append_iff.mp hread with ⟨rest, hbefore, hrest⟩ |
          ⟨rest, hstep, hrest⟩
        · exact ⟨rest, hbefore, hrest⟩
        · cases rest with
          | nil => exact ⟨[], by simpa using hstep.symm, by simpa using hrest.symm⟩
          | cons c rest =>
            -- A byte adds an ASCII character only behind what it closes.
            rw [List.cons_append, List.cons.injEq] at hrest
            obtain ⟨rfl, -⟩ := hrest
            have hbyte := h.eq_of_mem_step b ha (by simp [hstep])
            rw [hbyte, step_of_byte pending ha] at hstep
            have hclose := (List.append_cons_inj_of_notMem (not_mem_close pending ha)
              List.not_mem_nil).mp hstep
            exact absurd ⟨hbyte, hclose.1.symm⟩ hb
      obtain ⟨front, back, rfl, hfront, hback⟩ := ih (h.step b) hrest
      exact ⟨b :: front, back, rfl, by rw [decodeFrom, hfront], hback⟩

/-- An ASCII character is read exactly if its byte is there. -/
theorem mem_decode_iff {a : Char} (ha : a.toNat < 0x80) {bytes : Bytes} :
    a ∈ decode bytes ↔ UInt8.ofNat a.toNat ∈ bytes := by
  constructor
  · intro hmem
    obtain ⟨before, after, hread⟩ := List.append_of_mem hmem
    obtain ⟨front, back, rfl, -, -⟩ :=
      exists_of_decodeFrom_eq_append_cons sound_nothing ha hread
    simp
  · intro hmem
    obtain ⟨front, back, rfl⟩ := List.append_of_mem hmem
    rw [decode_append_byte ha]
    simp

/-- A text that is read starts with an ASCII character exactly if the bytes do. -/
theorem head?_decode_eq_some_iff {a : Char} (ha : a.toNat < 0x80) {bytes : Bytes} :
    (decode bytes).head? = some a ↔ bytes.head? = some (UInt8.ofNat a.toNat) := by
  rw [List.head?_eq_some_iff, List.head?_eq_some_iff]
  constructor
  · rintro ⟨after, hread⟩
    have hnone : decode bytes = [] ++ a :: after := hread
    obtain ⟨front, back, rfl, hfront, -⟩ :=
      exists_of_decodeFrom_eq_append_cons sound_nothing ha hnone
    rw [decode_eq_nil_iff.mp hfront]
    exact ⟨back, rfl⟩
  · rintro ⟨back, rfl⟩
    exact ⟨decode back, decode_append_byte ha [] back⟩

/-- A text that is read ends with an ASCII character exactly if the bytes do. -/
theorem getLast?_decode_eq_some_iff {a : Char} (ha : a.toNat < 0x80) {bytes : Bytes} :
    (decode bytes).getLast? = some a ↔ bytes.getLast? = some (UInt8.ofNat a.toNat) := by
  rw [List.getLast?_eq_some_iff, List.getLast?_eq_some_iff]
  constructor
  · rintro ⟨before, hread⟩
    obtain ⟨front, back, rfl, -, hback⟩ :=
      exists_of_decodeFrom_eq_append_cons sound_nothing ha hread
    rw [decode_eq_nil_iff.mp hback]
    exact ⟨front, rfl⟩
  · rintro ⟨front, rfl⟩
    exact ⟨decode front, decode_append_byte ha front []⟩

end Utf8

end LinkDump
