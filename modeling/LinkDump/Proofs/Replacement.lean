import LinkDump.Proofs.TextLines

/-! # Replaced bytes
Any bytes are read as some text. Where the bytes of a character stand, that character is read.
Everywhere else one replacement character is read for as many bytes as still begin a character, and
for a single byte if none do. `ReadsAs` says this rule with no state in it, and `readsAs_iff` that
it determines the text and that the text is what decoding gives. The invariant is `Pending.Behind`:
the bytes of the character at hand, and that whatever bytes are awaited complete it. -/

namespace LinkDump

namespace Utf8

/-- Bytes with which those of some character begin. -/
def BeginsChar (front : Bytes) : Prop := ∃ c : Char, front <+: String.utf8EncodeChar c

/-- Bytes `front` that are broken off in front of `back`: they are no character, and they cannot
become one, since together with the next byte they begin none. A byte that begins no character is
broken off alone. -/
structure BrokenOff (front back : Bytes) : Prop where
  ne_nil : front ≠ []
  incomplete : ∀ c : Char, String.utf8EncodeChar c ≠ front
  begins : front.length = 1 ∨ BeginsChar front
  maximal : ∀ b ∈ back.head?, ¬BeginsChar (front ++ [b])

/-- What bytes are read as: the characters whose bytes they are, with one replacement character for
all bytes that are broken off together. -/
inductive ReadsAs : Bytes → Text → Prop
  | nil : ReadsAs [] []
  | char (c : Char) {bytes : Bytes} {text : Text} (rest : ReadsAs bytes text) :
    ReadsAs (String.utf8EncodeChar c ++ bytes) (c :: text)
  | broken {front back : Bytes} {text : Text} (broken : BrokenOff front back)
    (rest : ReadsAs back text) : ReadsAs (front ++ back) (replacement :: text)

/-! ## Characters from their bytes -/

/-- A byte inside a character is known from its low bits. -/
theorem tailByte_eq {b : UInt8} {bits : Nat} (hlow : 0x80 ≤ b.toNat) (hhigh : b.toNat ≤ 0xBF)
    (hbits : bits % 64 = b.toNat % 64) : tailByte bits = b := by
  rw [← UInt8.toNat_inj, toNat_tailByte]
  omega

/-- The byte of a number is the byte with that number. -/
theorem ofNat_eq_byte {b : UInt8} {n : Nat} (h : n = b.toNat) : UInt8.ofNat n = b := by
  rw [h, UInt8.ofNat_toNat]

section Bytes

variable {b₀ b₁ b₂ b₃ : UInt8}

/-- Two bytes, the first of which says that two are needed. -/
theorem utf8EncodeChar_ofNat_of_two (h₀ : 0xC2 ≤ b₀.toNat ∧ b₀.toNat < 0xE0)
    (h₁ : 0x80 ≤ b₁.toNat ∧ b₁.toNat ≤ 0xBF) :
    String.utf8EncodeChar (Char.ofNat (b₀.toNat % 32 * 64 + b₁.toNat % 64)) = [b₀, b₁] := by
  have hvalid : (b₀.toNat % 32 * 64 + b₁.toNat % 64).isValidChar := .inl (by omega)
  have hn := toNat_ofNat hvalid
  rw [utf8EncodeChar_of_two (by omega) (by omega), hn, ofNat_eq_byte (b := b₀) (by omega),
    tailByte_eq h₁.1 h₁.2 (by omega)]

/-- Three bytes for a character that needs as many and is no surrogate. -/
theorem utf8EncodeChar_ofNat_of_three (h₀ : 0xE0 ≤ b₀.toNat ∧ b₀.toNat < 0xF0)
    (h₁ : 0x80 ≤ b₁.toNat ∧ b₁.toNat ≤ 0xBF) (h₂ : 0x80 ≤ b₂.toNat ∧ b₂.toNat ≤ 0xBF)
    (hlow : b₀.toNat = 0xE0 → 0xA0 ≤ b₁.toNat) (hsurrogate : b₀.toNat = 0xED → b₁.toNat < 0xA0) :
    String.utf8EncodeChar
        (Char.ofNat ((b₀.toNat % 16 * 64 + b₁.toNat % 64) * 64 + b₂.toNat % 64)) =
      [b₀, b₁, b₂] := by
  -- Surrogates are what `0xED` begins with a second byte from `0xA0` on.
  have hvalid : ((b₀.toNat % 16 * 64 + b₁.toNat % 64) * 64 + b₂.toNat % 64).isValidChar := by
    unfold Nat.isValidChar
    omega
  have hn := toNat_ofNat hvalid
  rw [utf8EncodeChar_of_three (by omega) (by omega), hn, ofNat_eq_byte (b := b₀) (by omega),
    tailByte_eq h₁.1 h₁.2 (by omega), tailByte_eq h₂.1 h₂.2 (by omega)]

/-- Four bytes for a character that needs as many and is not above the last code point. -/
theorem utf8EncodeChar_ofNat_of_four (h₀ : 0xF0 ≤ b₀.toNat ∧ b₀.toNat < 0xF5)
    (h₁ : 0x80 ≤ b₁.toNat ∧ b₁.toNat ≤ 0xBF) (h₂ : 0x80 ≤ b₂.toNat ∧ b₂.toNat ≤ 0xBF)
    (h₃ : 0x80 ≤ b₃.toNat ∧ b₃.toNat ≤ 0xBF) (hlow : b₀.toNat = 0xF0 → 0x90 ≤ b₁.toNat)
    (hhigh : b₀.toNat = 0xF4 → b₁.toNat < 0x90) :
    String.utf8EncodeChar (Char.ofNat
        (((b₀.toNat % 8 * 64 + b₁.toNat % 64) * 64 + b₂.toNat % 64) * 64 + b₃.toNat % 64)) =
      [b₀, b₁, b₂, b₃] := by
  have hvalid : (((b₀.toNat % 8 * 64 + b₁.toNat % 64) * 64 + b₂.toNat % 64) * 64 +
      b₃.toNat % 64).isValidChar := by
    unfold Nat.isValidChar
    omega
  have hn := toNat_ofNat hvalid
  rw [utf8EncodeChar_of_four (by omega) (by omega), hn, ofNat_eq_byte (b := b₀) (by omega),
    tailByte_eq h₁.1 h₁.2 (by omega), tailByte_eq h₂.1 h₂.2 (by omega),
    tailByte_eq h₃.1 h₃.2 (by omega)]

end Bytes

/-! ## Characters that are not finished -/

/-- However a character at hand is completed, its bytes are those of `front` and the ones that
complete it; and some byte goes on with it. -/
def CompletesFrom : Bytes → Nat → Continuation → Nat → Prop
  | front, 0, next, value => (∃ b, next.contains b = true) ∧ ∀ b, next.contains b = true →
      String.utf8EncodeChar (Char.ofNat (value * 64 + b.toNat % 64)) = front ++ [b]
  | front, left + 1, next, value => (∃ b, next.contains b = true) ∧ ∀ b, next.contains b = true →
      CompletesFrom (front ++ [b]) left .any (value * 64 + b.toNat % 64)

/-- A range that is not empty holds its first byte. -/
theorem Continuation.exists_contains {range : Continuation}
    (h : range.low.toNat ≤ range.high.toNat) : ∃ b, range.contains b = true :=
  ⟨range.low, contains_iff.mpr ⟨Nat.le_refl _, h⟩⟩

/-- The bytes that may stand inside a character are those from `0x80` to `0xBF`. -/
theorem Continuation.contains_any_iff {b : UInt8} :
    any.contains b = true ↔ 0x80 ≤ b.toNat ∧ b.toNat ≤ 0xBF :=
  contains_iff

section Lead

variable {b : UInt8} {next : Continuation} {bits : Nat}

/-- A first byte that asks for one more is completed by any byte that may stand inside a character.
-/
theorem completesFrom_of_two (hb : 0xC2 ≤ b.toNat ∧ b.toNat < 0xE0) (hbits : bits = b.toNat % 32) :
    CompletesFrom [b] 0 .any bits := by
  refine ⟨Continuation.exists_contains (by decide), ?_⟩
  intro b₁ h₁
  rw [hbits]
  exact utf8EncodeChar_ofNat_of_two hb (Continuation.contains_any_iff.mp h₁)

/-- A first byte that asks for two more is completed if the second one makes neither a longer
spelling than needed nor a surrogate. -/
theorem completesFrom_of_three (hb : 0xE0 ≤ b.toNat ∧ b.toNat < 0xF0)
    (hbits : bits = b.toNat % 16)
    (hnext : next.low.toNat ≤ next.high.toNat ∧ next.high.toNat ≤ 0xBF)
    (hlow : b.toNat = 0xE0 → 0xA0 ≤ next.low.toNat)
    (hsurrogate : b.toNat = 0xED → next.high.toNat < 0xA0) :
    CompletesFrom [b] 1 next bits := by
  have hcontinues : 0x80 ≤ next.low.toNat := UInt8.le_iff_toNat_le.mp next.continues
  refine ⟨Continuation.exists_contains hnext.1, ?_⟩
  intro b₁ h₁
  refine ⟨Continuation.exists_contains (by decide), ?_⟩
  intro b₂ h₂
  rw [Continuation.contains_iff] at h₁
  rw [hbits]
  exact utf8EncodeChar_ofNat_of_three hb (by omega) (Continuation.contains_any_iff.mp h₂)
    (by omega) (by omega)

/-- A first byte that asks for three more is completed if the second one makes neither a longer
spelling than needed nor a value above the last code point. -/
theorem completesFrom_of_four (hb : 0xF0 ≤ b.toNat ∧ b.toNat < 0xF5) (hbits : bits = b.toNat % 8)
    (hnext : next.low.toNat ≤ next.high.toNat ∧ next.high.toNat ≤ 0xBF)
    (hlow : b.toNat = 0xF0 → 0x90 ≤ next.low.toNat)
    (hhigh : b.toNat = 0xF4 → next.high.toNat < 0x90) :
    CompletesFrom [b] 2 next bits := by
  have hcontinues : 0x80 ≤ next.low.toNat := UInt8.le_iff_toNat_le.mp next.continues
  refine ⟨Continuation.exists_contains hnext.1, ?_⟩
  intro b₁ h₁
  refine ⟨Continuation.exists_contains (by decide), ?_⟩
  intro b₂ h₂
  refine ⟨Continuation.exists_contains (by decide), ?_⟩
  intro b₃ h₃
  rw [Continuation.contains_iff] at h₁
  rw [hbits]
  exact utf8EncodeChar_ofNat_of_four hb (by omega) (Continuation.contains_any_iff.mp h₂)
    (Continuation.contains_any_iff.mp h₃) (by omega) (by omega)

/-- Each first byte admits exactly what completes a character that begins with it. -/
theorem completesFrom_of_lead {left : Nat} (h : lead b = ([], .tail left next bits)) :
    CompletesFrom [b] left next bits := by
  unfold lead at h
  simp only [UInt8.lt_iff_toNat_lt, ← UInt8.toNat_inj, UInt8.reduceToNat] at h
  repeat' split at h
  all_goals cases h
  -- One case for each class of first bytes, from `0xC2` to `0xF4`.
  · exact completesFrom_of_two (by omega) rfl
  · exact completesFrom_of_three (by omega) (by omega) (by decide) (fun _ => by decide) (by omega)
  · exact completesFrom_of_three (by omega) (by omega) (by decide) (by omega) (fun _ => by decide)
  · exact completesFrom_of_three (by omega) rfl (by decide) (by omega) (by omega)
  · exact completesFrom_of_four (by omega) (by omega) (by decide) (fun _ => by decide) (by omega)
  · exact completesFrom_of_four (by omega) rfl (by decide) (by omega) (by omega)
  · exact completesFrom_of_four (by omega) (by omega) (by decide) (by omega) (fun _ => by decide)

end Lead

/-- What is awaited leads to some character. -/
theorem CompletesFrom.exists_char {front : Bytes} {left : Nat} {next : Continuation} {value : Nat}
    (h : CompletesFrom front left next value) :
    ∃ (c : Char) (b : UInt8) (more : Bytes), String.utf8EncodeChar c = front ++ b :: more := by
  -- Any byte that is admitted will do, and the ones behind it are found in turn.
  induction left generalizing front next value with
  | zero =>
    obtain ⟨⟨b, hb⟩, hall⟩ := h
    exact ⟨_, b, [], hall b hb⟩
  | succ left ih =>
    obtain ⟨⟨b, hb⟩, hall⟩ := h
    obtain ⟨c, d, more, hc⟩ := ih (hall b hb)
    exact ⟨c, b, d :: more, by rw [hc, List.append_assoc, List.singleton_append]⟩

/-- The bytes of a character do not begin those of another one. -/
theorem eq_nil_of_utf8EncodeChar_append {c d : Char} {more : Bytes}
    (h : String.utf8EncodeChar c ++ more = String.utf8EncodeChar d) : more = [] := by
  -- Both decode to one character, which leaves no text for `more`.
  have hread := decode_utf8EncodeChar_append d []
  rw [List.append_nil, ← h, decode_utf8EncodeChar_append, decode_nil, List.cons.injEq] at hread
  exact decode_eq_nil_iff.mp hread.2

/-! ## Decoding follows the rule -/

/-- Bytes that decoding replaces in front of the next byte, whatever that one is followed by, begin
no character together with it. -/
theorem not_beginsChar_of_replaced {front : Bytes} {b : UInt8}
    (h : ∀ more, decode (front ++ b :: more) = replacement :: decode (b :: more)) :
    ¬BeginsChar (front ++ [b]) := by
  -- The bytes of such a character would be read as a replacement and more, not as one character.
  rintro ⟨c, more, hc⟩
  rw [List.append_assoc, List.singleton_append] at hc
  have hread := decode_utf8EncodeChar_append c []
  rw [List.append_nil, ← hc, h, decode_nil, List.cons.injEq] at hread
  exact List.cons_ne_nil b more (decode_eq_nil_iff.mp hread.2)

/-- A byte that no character begins with is broken off alone. -/
theorem brokenOff_of_lead {b : UInt8} (h : lead b = ([replacement], .nothing)) (back : Bytes) :
    BrokenOff [b] back where
  ne_nil := List.cons_ne_nil b []
  incomplete c hc := by
    -- The only character that the byte could be is itself longer than one byte.
    have hread := decode_utf8EncodeChar_append c []
    have hstep : decode [b] = [replacement] := by
      rw [decode, decodeFrom, Pending.step, h]
      rfl
    rw [List.append_nil, hc, hstep, decode_nil, List.cons.injEq] at hread
    rw [← hread.1] at hc
    have hlength := congrArg List.length hc
    rw [String.length_utf8EncodeChar, List.length_singleton] at hlength
    exact absurd hlength (by decide)
  begins := .inl rfl
  maximal d _ := by
    apply not_beginsChar_of_replaced
    intro more
    rw [List.singleton_append, decode, decodeFrom, Pending.step, h]
    rfl

/-- The bytes behind which decoding stands: none, or those of the character at hand. -/
def Pending.Behind (front : Bytes) : Pending → Prop
  | .nothing => front = []
  | .tail left next value => CompletesFrom front left next value ∧ front ≠ [] ∧
      ∀ rest, decode (front ++ rest) = decodeFrom (.tail left next value) rest

namespace Pending

variable {front : Bytes} {b : UInt8} {left : Nat} {next : Continuation} {value : Nat}

/-- A first byte that completes nothing is the first of the bytes at hand. -/
theorem behind_lead (h : lead b = ([], tail left next value)) :
    (tail left next value).Behind [b] := by
  refine ⟨completesFrom_of_lead h, List.cons_ne_nil b [], ?_⟩
  intro rest
  rw [List.singleton_append, decode, decodeFrom, step, h]
  rfl

namespace Behind

/-- A byte that goes on with a character is the next of the bytes at hand. -/
theorem step (h : (tail (left + 1) next value).Behind front) (hb : next.contains b = true) :
    (tail left .any (value * 64 + b.toNat % 64)).Behind (front ++ [b]) := by
  obtain ⟨⟨-, hcompletes⟩, -, hread⟩ := h
  refine ⟨hcompletes b hb, List.append_ne_nil_of_right_ne_nil front (List.cons_ne_nil b []), ?_⟩
  intro rest
  rw [List.append_assoc, List.singleton_append, hread, decodeFrom, step_tail_succ hb]
  rfl

/-- An unfinished character is broken off in front of a byte that does not go on with it. -/
theorem brokenOff {back : Bytes} (h : (tail left next value).Behind front)
    (hback : ∀ b ∈ back.head?, ¬next.contains b = true) : BrokenOff front back := by
  obtain ⟨hcompletes, hne, hread⟩ := h
  obtain ⟨c, b, more, hc⟩ := hcompletes.exists_char
  refine ⟨hne, ?_, .inr ⟨c, b :: more, hc.symm⟩, ?_⟩
  · -- A character that is complete begins no other one, but these bytes begin `c`.
    intro d hd
    rw [← hd] at hc
    exact List.cons_ne_nil b more (eq_nil_of_utf8EncodeChar_append hc.symm)
  · intro d hd
    apply not_beginsChar_of_replaced
    intro more
    rw [hread, decodeFrom, step_tail_of_not_contains (hback d hd)]
    rfl

end Behind

end Pending

/-- Decoding reads by the rule from every state. The induction is on the bytes to come; `front` are
those that have been seen of the character at hand. -/
theorem readsAs_decodeFrom {front : Bytes} {pending : Pending} (h : pending.Behind front)
    (rest : Bytes) : ReadsAs (front ++ rest) (decodeFrom pending rest) := by
  induction rest generalizing front pending with
  | nil =>
    cases pending with
    | nothing =>
      obtain rfl : front = [] := h
      exact .nil
    | tail left next value => exact .broken (h.brokenOff fun b hb => nomatch hb) .nil
  | cons b rest ih =>
    have hnothing : ReadsAs rest (decode rest) := ih (show Pending.nothing.Behind [] from rfl)
    -- A byte that nothing is pending at, be it that it broke off what was, is a first byte.
    have hfirst : ReadsAs (b :: rest) (decode (b :: rest)) := by
      rw [decode, decodeFrom, Pending.step]
      rcases lead_cases b with ⟨hb, hlead⟩ | hlead | ⟨left, next, value, hlead⟩
      · have hvalid : b.toNat.isValidChar := .inl (Nat.lt_trans b.toNat_lt (by decide))
        have hn := toNat_ofNat hvalid
        have hc : String.utf8EncodeChar (Char.ofNat b.toNat) = [b] := by
          rw [utf8EncodeChar_of_ascii (by rwa [hn]), hn, UInt8.ofNat_toNat]
        have hread := ReadsAs.char (Char.ofNat b.toNat) hnothing
        rw [hc] at hread
        rw [hlead]
        exact hread
      · rw [hlead]
        exact .broken (brokenOff_of_lead hlead rest) hnothing
      · rw [hlead]
        exact ih (Pending.behind_lead hlead)
    cases pending with
    | nothing =>
      obtain rfl : front = [] := h
      exact hfirst
    | tail left next value =>
      rw [decodeFrom]
      by_cases hb : next.contains b = true
      · rw [List.append_cons]
        cases left with
        | zero =>
          have hc := h.1.2 b hb
          rw [Pending.step_tail_zero hb, ← hc]
          exact .char _ hnothing
        | succ left =>
          rw [Pending.step_tail_succ hb]
          exact ih (h.step hb)
      · rw [Pending.step_tail_of_not_contains hb]
        apply ReadsAs.broken (h.brokenOff ?_) hfirst
        rintro d ⟨⟩
        exact hb

/-- Bytes are read as the text that they are decoded to. -/
theorem readsAs_decode (bytes : Bytes) : ReadsAs bytes (decode bytes) :=
  readsAs_decodeFrom (show Pending.nothing.Behind [] from rfl) bytes

/-! ## The rule determines the text -/

/-- What begins a character begins it also when it is cut short. -/
theorem BeginsChar.of_append {front more : Bytes} (h : BeginsChar (front ++ more)) :
    BeginsChar front := by
  obtain ⟨c, hc⟩ := h
  exact ⟨c, (List.prefix_append front more).trans hc⟩

namespace BrokenOff

variable {front back more : Bytes}

/-- No character stands where bytes are broken off. -/
theorem ne_utf8EncodeChar_append (h : BrokenOff front back) (c : Char) (bytes : Bytes) :
    front ++ back ≠ String.utf8EncodeChar c ++ bytes := by
  intro heq
  rcases List.append_eq_append_iff.mp heq with ⟨more, hc, hback⟩ | ⟨more, hfront, -⟩
  · -- The character would be `front`, or would go on behind it.
    cases more with
    | nil => exact h.incomplete c (by rw [hc, List.append_nil])
    | cons b more =>
      have hbegins : BeginsChar (front ++ [b]) :=
        ⟨c, more, by rw [hc, List.append_assoc, List.singleton_append]⟩
      exact h.maximal b (by rw [hback]; rfl) hbegins
  · -- Then nothing of `front` is left behind the character.
    have hnil : more = [] := by
      rcases h.begins with hlength | ⟨d, rest, hd⟩
      · have hpos := c.utf8Size_pos
        rw [hfront, List.length_append, String.length_utf8EncodeChar] at hlength
        exact List.length_eq_zero_iff.mp (by omega)
      · rw [hfront, List.append_assoc] at hd
        exact (List.append_eq_nil_iff.mp (eq_nil_of_utf8EncodeChar_append hd)).1
    exact h.incomplete c (by rw [hfront, hnil, List.append_nil])

/-- Of two beginnings of the same bytes that are both broken off, neither is longer. -/
theorem eq_nil_of_append (h : BrokenOff front (more ++ back)) (h' : BrokenOff (front ++ more) back) :
    more = [] := by
  cases more with
  | nil => rfl
  | cons b more =>
    rcases h'.begins with hlength | hbegins
    · have hpos := List.length_pos_iff.mpr h.ne_nil
      rw [List.length_append, List.length_cons] at hlength
      omega
    · rw [List.append_cons] at hbegins
      exact absurd hbegins.of_append (h.maximal b rfl)

/-- As many bytes as possible are broken off, so there is one way to do it. -/
theorem unique {front' back' : Bytes} (h : BrokenOff front back) (h' : BrokenOff front' back')
    (heq : front ++ back = front' ++ back') : front = front' ∧ back = back' := by
  rcases List.append_eq_append_iff.mp heq with ⟨more, rfl, rfl⟩ | ⟨more, rfl, rfl⟩
  · obtain rfl := eq_nil_of_append h h'
    exact ⟨(List.append_nil front).symm, rfl⟩
  · obtain rfl := eq_nil_of_append h' h
    exact ⟨List.append_nil front', rfl⟩

end BrokenOff

namespace ReadsAs

variable {bytes front back : Bytes} {text text' : Text}

/-- Where there are no bytes there is nothing to read. -/
theorem eq_nil (h : ReadsAs [] text) : text = [] := by
  generalize hbytes : ([] : Bytes) = bytes at h
  cases h with
  | nil => rfl
  | char c rest =>
    exact absurd (List.append_eq_nil_iff.mp hbytes.symm).1 (utf8EncodeChar_ne_nil c)
  | broken hbroken rest =>
    exact absurd (List.append_eq_nil_iff.mp hbytes.symm).1 hbroken.ne_nil

/-- The bytes of a character in front are read as that character. -/
theorem of_char {c : Char} (h : ReadsAs (String.utf8EncodeChar c ++ bytes) text) :
    ∃ rest, text = c :: rest ∧ ReadsAs bytes rest := by
  generalize hbytes : String.utf8EncodeChar c ++ bytes = whole at h
  cases h with
  | nil => exact absurd (List.append_eq_nil_iff.mp hbytes).1 (utf8EncodeChar_ne_nil c)
  | char d rest =>
    have hread := congrArg decode hbytes
    rw [decode_utf8EncodeChar_append, decode_utf8EncodeChar_append, List.cons.injEq] at hread
    obtain ⟨rfl, -⟩ := hread
    rw [List.append_cancel_left_eq] at hbytes
    exact ⟨_, rfl, hbytes ▸ rest⟩
  | broken hbroken rest => exact absurd hbytes.symm (hbroken.ne_utf8EncodeChar_append c bytes)

/-- Bytes in front that are broken off are read as one replacement character. -/
theorem of_brokenOff (h : ReadsAs (front ++ back) text) (hbroken : BrokenOff front back) :
    ∃ rest, text = replacement :: rest ∧ ReadsAs back rest := by
  generalize hbytes : front ++ back = whole at h
  cases h with
  | nil => exact absurd (List.append_eq_nil_iff.mp hbytes).1 hbroken.ne_nil
  | char c rest => exact absurd hbytes (hbroken.ne_utf8EncodeChar_append c _)
  | broken hbroken' rest =>
    obtain ⟨rfl, rfl⟩ := hbroken.unique hbroken' hbytes
    exact ⟨_, rfl, rest⟩

/-- The induction is on one of the two readings; the other one has to take the same step. -/
theorem unique (h : ReadsAs bytes text) (h' : ReadsAs bytes text') : text = text' := by
  induction h generalizing text' with
  | nil => exact h'.eq_nil.symm
  | char c _ ih =>
    obtain ⟨rest, rfl, hrest⟩ := h'.of_char
    rw [ih hrest]
  | broken hbroken _ ih =>
    obtain ⟨rest, rfl, hrest⟩ := h'.of_brokenOff hbroken
    rw [ih hrest]

end ReadsAs

/-- The rule determines the text of bytes, and it is the text that decoding gives. -/
theorem readsAs_iff {bytes : Bytes} {text : Text} : ReadsAs bytes text ↔ decode bytes = text := by
  constructor
  · intro h
    exact (readsAs_decode bytes).unique h
  · rintro rfl
    exact readsAs_decode bytes

end Utf8

end LinkDump
