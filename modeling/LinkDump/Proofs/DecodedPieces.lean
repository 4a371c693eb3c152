import LinkDump.Proofs.Replacement
import LinkDump.Proofs.SingleLines

/-! # Bytes that are decoded in pieces
A byte below `0x80` ends whatever character is at hand and is a character itself. So bytes may be
cut in front of such a byte or behind it, at their newlines in particular, and the pieces be decoded
one by one; and the characters below U+0080 of a text are those of its bytes, each of them and no
others. -/

namespace LinkDump

namespace Utf8

/-! ## Pieces -/

/-- Two pieces of bytes between which one below `0x80` stands, at the end of the first or at the
start of the second. -/
def AsciiBorder (front back : Bytes) : Prop :=
  (∃ b ∈ front.getLast?, b < 0x80) ∨ ∃ b ∈ back.head?, b < 0x80

/-- Such a byte at the front of a piece is read on its own. -/
theorem decode_cons_of_ascii {b : UInt8} (hb : b < 0x80) (bytes : Bytes) :
    decode (b :: bytes) = Char.ofNat b.toNat :: decode bytes := by
  rw [decode, decodeFrom, Pending.step, lead_of_ascii hb]
  rfl

/-- Bytes are decoded piece by piece where an ASCII byte stands at the border. -/
theorem AsciiBorder.decode_append {front back : Bytes} (h : AsciiBorder front back) :
    decode (front ++ back) = decode front ++ decode back := by
  rcases h with ⟨b, hlast, hb⟩ | ⟨b, hhead, hb⟩
  · obtain ⟨init, rfl⟩ := List.getLast?_eq_some_iff.mp hlast
    -- Both sides are the text of `init`, the byte, and the text of `back`.
    have hwhole : decode (init ++ b :: back) = decode init ++ decode (b :: back) :=
      decodeFrom_append_cons_of_ascii .nothing init back hb
    have hfront : decode (init ++ [b]) = decode init ++ decode [b] :=
      decodeFrom_append_cons_of_ascii .nothing init [] hb
    rw [List.append_assoc, List.singleton_append, hwhole, hfront, decode_cons_of_ascii hb back,
      decode_cons_of_ascii hb [], List.append_assoc]
    rfl
  · obtain ⟨rest, rfl⟩ := List.head?_eq_some_iff.mp hhead
    exact decodeFrom_append_cons_of_ascii .nothing front rest hb

/-- What stands behind a border does not matter to it beyond the first piece. -/
theorem AsciiBorder.append {front back : Bytes} (h : AsciiBorder front back) (more : Bytes) :
    AsciiBorder front (back ++ more) := by
  apply h.imp_right
  rintro ⟨b, hhead, hb⟩
  obtain ⟨rest, rfl⟩ := List.head?_eq_some_iff.mp hhead
  exact ⟨b, rfl, hb⟩

/-- Pieces with such borders are decoded one by one. -/
theorem flatMap_decode {pieces : List Bytes} (h : pieces.IsChain AsciiBorder) :
    pieces.flatMap decode = decode pieces.flatten := by
  induction pieces with
  | nil => rfl
  | cons piece pieces ih =>
    cases pieces with
    | nil => simp
    | cons next pieces =>
      rw [List.isChain_cons_cons] at h
      have hborder : AsciiBorder piece (next :: pieces).flatten := h.1.append pieces.flatten
      rw [List.flatMap_cons, List.flatten_cons, hborder.decode_append, ih h.2]

/-- Physical lines end with a newline, all but the last. -/
theorem isChain_physicalLines (bytes : Bytes) : (physicalLines bytes).IsChain AsciiBorder := by
  apply List.Pairwise.isChain
  apply (pairwise_physicalLines bytes).imp
  intro line next hlast
  exact .inl ⟨newline, hlast, by decide⟩

/-! ## Characters below U+0080 -/

/-- One byte adds the character of its number, if that is below `0x80`, and no other one that is. -/
theorem Pending.Sound.filter_step {pending : Pending} (h : pending.Sound) (b : UInt8) :
    (pending.step b).1.filter (fun c => c.toNat < 0x80) =
      if b < 0x80 then [Char.ofNat b.toNat] else [] := by
  split
  next hb =>
    -- The byte closes what is at hand, which can only become a replacement character.
    have hclose : pending.close.filter (fun c => c.toNat < 0x80) = [] := by
      rw [List.filter_eq_nil_iff]
      intro c hmem hc
      exact not_mem_close pending (of_decide_eq_true hc) hmem
    have hn : (Char.ofNat b.toNat).toNat = b.toNat :=
      toNat_ofNat (.inl (Nat.lt_trans hb (by decide)))
    have hascii : (Char.ofNat b.toNat).toNat < 0x80 := by
      rw [hn]
      exact hb
    rw [pending.step_of_ascii hb, List.filter_append, hclose, List.nil_append,
      List.filter_cons_of_pos (by simpa using hascii), List.filter_nil]
  next hb =>
    -- A character below `0x80` can only come from a byte that has its number.
    rw [List.filter_eq_nil_iff]
    intro c hmem hc
    have hbyte := h.eq_of_mem_step b (of_decide_eq_true hc) hmem
    rw [hbyte] at hb
    exact hb (byte_lt (of_decide_eq_true hc))

/-- From any sound state the ASCII characters that are decoded are the ASCII bytes, in order. -/
theorem filter_decodeFrom {pending : Pending} (h : pending.Sound) (bytes : Bytes) :
    (decodeFrom pending bytes).filter (fun c => c.toNat < 0x80) =
      (bytes.filter (· < 0x80)).map fun b => Char.ofNat b.toNat := by
  induction bytes generalizing pending with
  | nil =>
    rw [List.filter_nil, List.map_nil, List.filter_eq_nil_iff]
    intro c hmem hc
    exact not_mem_close pending (of_decide_eq_true hc) hmem
  | cons b bytes ih =>
    rw [decodeFrom, List.filter_append, h.filter_step, ih (h.step b), List.filter_cons]
    by_cases hb : b < 0x80 <;> simp [hb]

/-- Each character below U+0080 is read as often as its byte stands there. -/
theorem count_decode {a : Char} (ha : a.toNat < 0x80) (bytes : Bytes) :
    (decode bytes).count a = bytes.count (UInt8.ofNat a.toNat) := by
  have hfilter := filter_decodeFrom sound_nothing bytes
  rw [← decode] at hfilter
  rw [← List.count_filter (p := fun c : Char => c.toNat < 0x80) (by simpa using ha), hfilter,
    List.count_eq_countP, List.countP_map, List.countP_filter, List.count_eq_countP]
  apply List.countP_congr
  intro b _
  simp only [Function.comp, Bool.and_eq_true, beq_iff_eq, decide_eq_true_eq]
  constructor
  · rintro ⟨heq, hb⟩
    exact (ofNat_toNat_eq_iff ha hb).mp heq
  · rintro rfl
    exact ⟨(ofNat_toNat_eq_iff ha (byte_lt ha)).mpr rfl, byte_lt ha⟩

/-! ## Well-formed bytes -/

/-- Decoding keeps exactly the bytes that are well formed. -/
theorem isValidUTF8_iff {bytes : Bytes} :
    bytes.toByteArray.IsValidUTF8 ↔ encode (decode bytes) = bytes := by
  constructor
  · rintro ⟨text, htext⟩
    rw [List.utf8Encode, List.toByteArray_inj] at htext
    have hbytes : bytes = encode text := htext
    rw [hbytes, decode_encode]
  · intro h
    rw [← h]
    exact ⟨decode bytes, rfl⟩

/-- The text of any bytes. It is the one text that follows the rule of one replacement character for
each maximal run of bytes that is broken off. Lines, and any other pieces between which a byte below
`0x80` stands, may be decoded one by one. The characters below U+0080 are those of the bytes in the
same order, so that no bar, `#` or line break is swallowed or invented. Well-formed bytes, and no
others, are the bytes of their text, and the bytes of what was decoded are decoded to the same. -/
theorem decode_any_bytes (bytes : Bytes) :
    (∀ text, ReadsAs bytes text ↔ decode bytes = text) ∧
    (physicalLines bytes).flatMap decode = decode bytes ∧
    (∀ pieces : List Bytes, pieces.flatten = bytes → pieces.IsChain AsciiBorder →
      pieces.flatMap decode = decode bytes) ∧
    (decode bytes).filter (fun c => c.toNat < 0x80) =
      (bytes.filter (· < 0x80)).map (fun b => Char.ofNat b.toNat) ∧
    (∀ a : Char, a.toNat < 0x80 → (decode bytes).count a = bytes.count (UInt8.ofNat a.toNat)) ∧
    (bytes.toByteArray.IsValidUTF8 ↔ encode (decode bytes) = bytes) ∧
    decode (encode (decode bytes)) = decode bytes := by
  have hlines := flatMap_decode (isChain_physicalLines bytes)
  rw [flatten_physicalLines] at hlines
  refine ⟨fun text => readsAs_iff, hlines, ?_, filter_decodeFrom sound_nothing bytes,
    fun a ha => count_decode ha bytes, isValidUTF8_iff, decode_encode _⟩
  rintro pieces rfl hborders
  exact flatMap_decode hborders

/-- An unfinished character in front of a bar, a surrogate in front of a newline, and the start of a
character at the end. -/
theorem decode_broken_pieces :
    ([[0xE2, 0x82], [0x7C], [0xED, 0xA0, 0x80, 0x0A], [0xF0, 0x9F, 0x98]] : List Bytes).flatMap
        decode =
      ['\uFFFD', '|', '\uFFFD', '\uFFFD', '\uFFFD', '\n', '\uFFFD'] ∧
    (decode [0xE2, 0x82, 0x7C, 0xED, 0xA0, 0x80, 0x0A, 0xF0, 0x9F, 0x98]).count '|' = 1 := by
  obtain ⟨-, -, hpieces, -, hcount, -, -⟩ :=
    decode_any_bytes [0xE2, 0x82, 0x7C, 0xED, 0xA0, 0x80, 0x0A, 0xF0, 0x9F, 0x98]
  refine ⟨?_, (hcount '|' (by decide)).trans (by decide)⟩
  rw [hpieces _ (by decide) (by simp [AsciiBorder])]
  decide

end Utf8

end LinkDump
