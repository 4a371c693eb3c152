import LinkDump.Proofs.LineContents

/-! # Line endings do not matter
A dump without carriage returns says the same with one in front of every newline, and a dump whose
last line is not closed says the same with a newline behind it. Either way all lines have the same
contents as before. What is left are targets of several lines: these hold the line breaks between
their lines, so the first change is seen there, and the second one is at the end of the last target,
where a line break is dropped. -/

namespace LinkDump

/-! ## Returns in front of newlines -/

/-- The byte of a carriage return. -/
def carriageReturn : UInt8 := 0x0D

/-- Bytes with a carriage return in front of every newline. -/
def returnNewlines (bytes : Bytes) : Bytes :=
  bytes.flatMap fun b => if b = newline then [carriageReturn, newline] else [b]

/-- A text with `"\r\n"` in place of every `"\n"`. -/
def crlf (text : Text) : Text := text.flatMap fun c => if c = '\n' then ['\r', '\n'] else [c]

/-- A link with `"\r\n"` in place of every newline of its target. -/
def Link.crlfTarget (link : Link) : Link := { link with target := crlf link.target }

@[simp] theorem returnNewlines_nil : returnNewlines [] = [] := rfl

/-- A newline gets a carriage return in front of it. -/
theorem returnNewlines_newline (bytes : Bytes) :
    returnNewlines (newline :: bytes) = carriageReturn :: newline :: returnNewlines bytes := rfl

/-- Any other byte stays as it is. -/
theorem returnNewlines_cons {b : UInt8} (h : b ≠ newline) (bytes : Bytes) :
    returnNewlines (b :: bytes) = b :: returnNewlines bytes := by
  rw [returnNewlines, List.flatMap_cons, if_neg h]
  rfl

/-- A newline gets a carriage return in front of it. -/
theorem crlf_newline (text : Text) : crlf ('\n' :: text) = '\r' :: '\n' :: crlf text := rfl

/-- Any other character stays as it is. -/
theorem crlf_cons {c : Char} (h : c ≠ '\n') (text : Text) : crlf (c :: text) = c :: crlf text := by
  rw [crlf, List.flatMap_cons, if_neg h]
  rfl

/-- Texts that are joined are changed one after the other. -/
theorem crlf_append (front back : Text) : crlf (front ++ back) = crlf front ++ crlf back :=
  List.flatMap_append

/-- Lines that are joined are changed line by line. -/
theorem crlf_flatten (lines : List Text) : crlf lines.flatten = (lines.map crlf).flatten := by
  induction lines with
  | nil => rfl
  | cons line lines ih => rw [List.flatten_cons, crlf_append, ih, List.map_cons, List.flatten_cons]

/-- A text without newlines stays as it is. -/
theorem crlf_of_not_mem {text : Text} (h : '\n' ∉ text) : crlf text = text := by
  induction text with
  | nil => rfl
  | cons c text ih =>
    rw [List.mem_cons, not_or] at h
    rw [crlf_cons (Ne.symm h.1), ih h.2]

/-- What is not empty does not become empty. -/
theorem crlf_ne_nil {text : Text} (h : text ≠ []) : crlf text ≠ [] := by
  obtain ⟨c, text, rfl⟩ := List.exists_cons_of_ne_nil h
  by_cases hc : c = '\n'
  · rw [hc, crlf_newline]
    exact List.cons_ne_nil _ _
  · rw [crlf_cons hc]
    exact List.cons_ne_nil _ _

/-- Only the last line break of a text is dropped, and it is dropped whole. -/
theorem dropLineBreak_crlf {text : Text} (h : '\r' ∉ text) :
    dropLineBreak (crlf text) = crlf (dropLineBreak text) := by
  fun_induction dropLineBreak text with
  | case1 => rfl
  | case2 => rfl
  | case3 => simp at h
  | case4 c text hn hr ih =>
    rw [List.mem_cons, not_or] at h
    by_cases hc : c = '\n'
    · -- Something follows this newline, so it is not the one that is dropped.
      have hne : text ≠ [] := hn hc
      have hne' : crlf text ≠ [] := crlf_ne_nil hne
      rw [hc, crlf_newline, crlf_newline, dropLineBreak.eq_4, dropLineBreak.eq_4, ih h.2]
      · intro _
        exact hne'
      · intro hreturn
        cases hreturn
      · intro hreturn
        cases hreturn
      · intro _ hnewline
        exact hne' (List.cons.inj hnewline).2
    · rw [crlf_cons hc, crlf_cons hc, dropLineBreak_cons hc (Ne.symm h.1), ih h.2]

/-! ## Bytes -/

/-- Bytes start alike before and after the change, as far as no line break is reached. -/
theorem isPrefix_returnNewlines_iff {front : Bytes} (hn : newline ∉ front)
    (hr : carriageReturn ∉ front) (bytes : Bytes) :
    front <+: returnNewlines bytes ↔ front <+: bytes := by
  induction front generalizing bytes with
  | nil => exact ⟨fun _ => List.nil_prefix, fun _ => List.nil_prefix⟩
  | cons b front ih =>
    rw [List.mem_cons, not_or] at hn hr
    cases bytes with
    | nil => rfl
    | cons d bytes =>
      by_cases hd : d = newline
      · -- Neither the newline nor the return in front of it is `b`.
        rw [hd, returnNewlines_newline, List.cons_prefix_cons, List.cons_prefix_cons]
        constructor
        · rintro ⟨rfl, -⟩
          exact absurd rfl hr.1
        · rintro ⟨rfl, -⟩
          exact absurd rfl hn.1
      · rw [returnNewlines_cons hd, List.cons_prefix_cons, List.cons_prefix_cons, ih hn.2 hr.2]

/-- Returns come behind the mark. -/
theorem dropMark_returnNewlines (bytes : Bytes) :
    dropMark (returnNewlines bytes) = returnNewlines (dropMark bytes) := by
  by_cases hmark : byteOrderMark <+: bytes
  · obtain ⟨rest, rfl⟩ := hmark
    have hfront : returnNewlines (byteOrderMark ++ rest) =
        byteOrderMark ++ returnNewlines rest := rfl
    rw [hfront, dropMark_mark_append, dropMark_mark_append]
  · have hmark' : ¬byteOrderMark <+: returnNewlines bytes := by
      rwa [isPrefix_returnNewlines_iff (by decide) (by decide)]
    rw [dropMark_of_unmarked hmark', dropMark_of_unmarked hmark]

/-- Lines end where they did before. -/
theorem physicalLines_returnNewlines (bytes : Bytes) :
    physicalLines (returnNewlines bytes) = (physicalLines bytes).map returnNewlines := by
  induction bytes with
  | nil => rfl
  | cons b bytes ih =>
    by_cases hb : b = newline
    · rw [hb, returnNewlines_newline, physicalLines, if_neg (by decide), physicalLines, if_pos rfl,
        ih, physicalLines, if_pos rfl]
      rfl
    · rw [returnNewlines_cons hb, physicalLines, if_neg hb, ih, physicalLines, if_neg hb]
      cases physicalLines bytes with
      | nil => rw [List.map_nil, List.map_singleton, returnNewlines_cons hb, returnNewlines_nil]
      | cons line lines => simp only [List.map_cons, returnNewlines_cons hb]

namespace Utf8

/-- Returns are read in front of the newlines that are read, also where a newline breaks off a
character. -/
theorem decodeFrom_returnNewlines {pending : Pending} (h : pending.Sound) (bytes : Bytes) :
    decodeFrom pending (returnNewlines bytes) = crlf (decodeFrom pending bytes) := by
  induction bytes generalizing pending with
  | nil => exact (crlf_of_not_mem (not_mem_close pending (by decide))).symm
  | cons b bytes ih =>
    by_cases hb : b = newline
    · -- The return closes what is pending, as the newline does without it.
      have hreturn : pending.step carriageReturn = (pending.close ++ ['\r'], .nothing) :=
        step_of_byte pending (a := '\r') (by decide)
      have hnewline : ∀ pending : Pending,
          pending.step newline = (pending.close ++ ['\n'], .nothing) := by
        intro pending
        exact step_of_byte pending (a := '\n') (by decide)
      rw [hb, returnNewlines_newline, decodeFrom, hreturn, decodeFrom, hnewline, decodeFrom,
        hnewline, ih sound_nothing, crlf_append, crlf_append,
        crlf_of_not_mem (not_mem_close pending (by decide))]
      simp [Pending.close, crlf]
    · -- No newline is read from `b`.
      have hmem : '\n' ∉ (pending.step b).1 := by
        intro hmem
        exact hb (h.eq_of_mem_step b (by decide) hmem)
      rw [returnNewlines_cons hb, decodeFrom, ih (h.step b), decodeFrom, crlf_append,
        crlf_of_not_mem hmem]

end Utf8

/-- The lines of a dump with returns are its lines with returns. -/
theorem dumpTexts_returnNewlines (bytes : Bytes) :
    dumpTexts (returnNewlines bytes) = (dumpTexts bytes).map crlf := by
  rw [dumpTexts, dumpLines, dropMark_returnNewlines, physicalLines_returnNewlines, List.map_map,
    dumpTexts, dumpLines, List.map_map]
  congr 1
  funext line
  exact Utf8.decodeFrom_returnNewlines Utf8.sound_nothing line

/-! ## Lines without carriage returns -/

/-- A line as it is cut from bytes without carriage returns. -/
inductive PlainLine : Text → Prop
  /-- The last line lacks its newline. -/
  | unclosed {text : Text} (hn : '\n' ∉ text) (hr : '\r' ∉ text) : PlainLine text
  | closed {text : Text} (hn : '\n' ∉ text) (hr : '\r' ∉ text) : PlainLine (text ++ ['\n'])

/-- A physical line has no newline but its last byte. -/
theorem exists_of_mem_physicalLines {bytes line : Bytes} (h : line ∈ physicalLines bytes) :
    ∃ front, newline ∉ front ∧ (line = front ∨ line = front ++ [newline]) := by
  induction bytes generalizing line with
  | nil => cases h
  | cons b bytes ih =>
    by_cases hb : b = newline
    · rw [physicalLines, if_pos hb, List.mem_cons] at h
      rcases h with rfl | h
      · exact ⟨[], List.not_mem_nil, .inr (by rw [hb]; rfl)⟩
      · exact ih h
    · rw [physicalLines, if_neg hb] at h
      cases hlines : physicalLines bytes with
      | nil =>
        rw [hlines, List.mem_singleton] at h
        refine ⟨[b], ?_, .inl h⟩
        simpa using Ne.symm hb
      | cons first lines =>
        rw [hlines] at h ih
        rcases List.mem_cons.mp h with rfl | h
        · -- The first line is longer by `b`, which is no newline.
          obtain ⟨front, hfront, hfirst⟩ := ih List.mem_cons_self
          refine ⟨b :: front, ?_, ?_⟩
          · simpa using ⟨Ne.symm hb, hfront⟩
          · rcases hfirst with rfl | rfl
            · exact .inl rfl
            · exact .inr rfl
        · exact ih (List.mem_cons_of_mem first h)

/-- Where no byte is a carriage return, all lines are plain. -/
theorem plainLine_of_mem_dumpTexts {bytes : Bytes} (h : carriageReturn ∉ bytes) {line : Text}
    (hline : line ∈ dumpTexts bytes) : PlainLine line := by
  obtain ⟨raw, hraw, rfl⟩ := List.mem_map.mp hline
  have hbytes : raw ⊆ bytes := by
    intro b hb
    apply (dropMark_suffix bytes).subset
    rw [← flatten_physicalLines (dropMark bytes)]
    exact List.mem_flatten_of_mem hraw hb
  obtain ⟨front, hfront, hcases⟩ := exists_of_mem_physicalLines hraw
  have hn : '\n' ∉ Utf8.decode front := mt (Utf8.mem_decode_iff (by decide)).mp hfront
  have hr : '\r' ∉ Utf8.decode front := by
    rw [Utf8.mem_decode_iff (by decide)]
    intro hmem
    rcases hcases with rfl | rfl
    · exact h (hbytes hmem)
    · exact h (hbytes (List.mem_append_left _ hmem))
  rcases hcases with rfl | rfl
  · exact .unclosed hn hr
  · have hclosed : Utf8.decode (front ++ [newline]) = Utf8.decode front ++ ['\n'] :=
      Utf8.decode_append_byte (a := '\n') (by decide) front []
    rw [hclosed]
    exact .closed hn hr

namespace PlainLine

variable {line : Text} (h : PlainLine line)
include h

/-- A plain line has no carriage return. -/
theorem return_not_mem : '\r' ∉ line := by
  cases h with
  | unclosed hn hr => exact hr
  | closed hn hr =>
    rw [List.mem_append, List.mem_singleton, not_or]
    exact ⟨hr, by decide⟩

/-- What is in front of a character that is no newline holds no newline. -/
theorem newline_not_mem_of_append_cons {c : Char} {front back : Text}
    (hline : line = front ++ c :: back) : '\n' ∉ front := by
  intro hmem
  cases h with
  | unclosed hn hr =>
    rw [hline] at hn
    exact hn (List.mem_append_left _ hmem)
  | @closed text hn hr =>
    -- The newline at the end is `c` or behind it.
    have htext : text = front ++ (c :: back).dropLast := by
      rw [← List.dropLast_append_of_ne_nil (List.cons_ne_nil c back), ← hline,
        List.dropLast_concat]
    rw [htext] at hn
    exact hn (List.mem_append_left _ hmem)

/-- A plain line keeps its content with the other line break. -/
theorem sameContent_crlf : SameContent line (crlf line) := by
  cases h with
  | unclosed hn hr =>
    rw [crlf_of_not_mem hn]
    rfl
  | @closed text hn hr =>
    have hlast : text.getLast? ≠ some '\r' := by
      intro hlast
      exact hr (List.mem_of_getLast? hlast)
    have hcrlf : crlf (text ++ ['\n']) = text ++ ['\r', '\n'] := by
      rw [crlf_append, crlf_of_not_mem hn]
      rfl
    rw [SameContent, hcrlf, dropLineBreak_append_newline hlast, dropLineBreak_append_returnNewline]

end PlainLine

/-- Plain lines keep their contents with the other line break. -/
theorem sameContents_crlf {lines : List Text} (h : ∀ line ∈ lines, PlainLine line) :
    SameContents lines (lines.map crlf) := by
  rw [SameContents, List.forall₂_map_right_iff, List.forall₂_same]
  intro line hline
  exact (h line hline).sameContent_crlf

namespace RecordLines

/-- The record with returns in front of its newlines. -/
def crlf (record : RecordLines) : RecordLines :=
  ⟨record.source, LinkDump.crlf record.text, record.more.map LinkDump.crlf⟩

/-- Returns do not move the records. -/
theorem cut_map_crlf {lines : List Text} (h : ∀ line ∈ lines, PlainLine line) (width : Nat) :
    cut width (lines.map LinkDump.crlf) =
      ((cut width lines).1.map LinkDump.crlf, (cut width lines).2.map crlf) := by
  induction lines with
  | nil => rfl
  | cons line lines ih =>
    rw [List.forall_mem_cons] at h
    by_cases hbar : BarAt width line
    · obtain ⟨source, text, rfl, hsize⟩ := barAt_iff_exists.mp hbar
      have hsource : LinkDump.crlf (source ++ '|' :: text) =
          source ++ '|' :: LinkDump.crlf text := by
        rw [crlf_append, crlf_of_not_mem (h.1.newline_not_mem_of_append_cons rfl),
          crlf_cons (by decide)]
      rw [List.map_cons, hsource, cut_cons_bar hsize, cut_cons_bar hsize, ih h.2]
      rfl
    · have hbar' : ¬BarAt width (LinkDump.crlf line) :=
        mt (h.1.sameContent_crlf.barAt_iff width).mpr hbar
      rw [List.map_cons, cut_cons_of_not_barAt hbar', cut_cons_of_not_barAt hbar, ih h.2]
      rfl

/-- The target has returns in front of the newlines that are left in it. -/
theorem link_crlf {record : RecordLines} (h : ∀ line ∈ record.lines, '\r' ∉ line) :
    record.crlf.link = record.link.crlfTarget := by
  have hmem : '\r' ∉ record.text ++ record.more.flatten := by
    rw [lines, List.forall_mem_cons] at h
    rw [List.mem_append, List.mem_flatten]
    rintro (hmem | ⟨line, hline, hmem⟩)
    · exact h.1 (by simp [first, hmem])
    · exact h.2 line hline hmem
  rw [link, link, crlf, Link.crlfTarget, ← crlf_flatten, ← crlf_append, dropLineBreak_crlf hmem]

end RecordLines

/-- Returns change the items of lines in the newlines of their targets only. -/
theorem items_map_crlf {lines : List Text} (h : ∀ line ∈ lines, PlainLine line) (width : Nat) :
    (Dialect.fixedWidth width).items (lines.map crlf) =
      ((Dialect.fixedWidth width).items lines).map (Except.map Link.crlfTarget) := by
  apply (sameContents_crlf h).items_fixedWidth
  rw [RecordLines.cut_map_crlf h, List.map_map, List.map_map]
  apply List.map_congr_left
  intro record hrecord
  apply RecordLines.link_crlf
  intro line hline
  have hmem : line ∈ lines := by
    rw [← (RecordLines.cut_spec width lines).1]
    exact List.mem_append_right _ (List.mem_flatMap_of_mem hrecord hline)
  exact (h line hmem).return_not_mem

/-! ## A newline at the end -/

/-- A newline changes the last line and no other. -/
theorem physicalLines_append_newline {bytes : Bytes} (hne : bytes ≠ [])
    (hlast : bytes.getLast? ≠ some newline) :
    ∃ front last, physicalLines bytes = front ++ [last] ∧
      physicalLines (bytes ++ [newline]) = front ++ [last ++ [newline]] ∧
      last.getLast? = bytes.getLast? := by
  induction bytes with
  | nil => exact absurd rfl hne
  | cons b bytes ih =>
    cases bytes with
    | nil =>
      have hb : b ≠ newline := by simpa using hlast
      refine ⟨[], [b], ?_, ?_, rfl⟩
      · rw [physicalLines, if_neg hb]
        rfl
      · rw [List.singleton_append, physicalLines, if_neg hb]
        rfl
    | cons d bytes =>
      rw [List.getLast?_cons_cons] at hlast
      obtain ⟨front, last, hlines, hclosed, hend⟩ := ih (List.cons_ne_nil d bytes) hlast
      have hne' : last ≠ [] := by
        rintro rfl
        exact absurd hend.symm (by simp)
      rw [List.getLast?_cons_cons, List.cons_append, physicalLines, hlines, physicalLines, hclosed]
      -- A byte in front starts a line of its own, or goes to the front of the first line.
      by_cases hb : b = newline
      · rw [if_pos hb, if_pos hb]
        exact ⟨[b] :: front, last, rfl, rfl, hend⟩
      · rw [if_neg hb, if_neg hb]
        cases front with
        | nil =>
          -- The first line is the last one, and ends as it did.
          obtain ⟨c, last, rfl⟩ := List.exists_cons_of_ne_nil hne'
          refine ⟨[], b :: c :: last, rfl, rfl, ?_⟩
          rw [List.getLast?_cons_cons]
          exact hend
        | cons first front => exact ⟨(b :: first) :: front, last, rfl, rfl, hend⟩

/-- A newline at the end is not taken for a part of the mark. -/
theorem dropMark_append_newline (bytes : Bytes) :
    dropMark (bytes ++ [newline]) = dropMark bytes ++ [newline] := by
  by_cases hmark : byteOrderMark <+: bytes
  · obtain ⟨rest, rfl⟩ := hmark
    rw [List.append_assoc, dropMark_mark_append, dropMark_mark_append]
  · have hmark' : ¬byteOrderMark <+: bytes ++ [newline] := by
      rw [List.prefix_concat_iff, not_or]
      refine ⟨?_, hmark⟩
      intro heq
      have hmem : newline ∈ byteOrderMark := by
        rw [heq]
        simp
      exact absurd hmem (by decide)
    rw [dropMark_of_unmarked hmark', dropMark_of_unmarked hmark]

/-- A text that does not end like a line break. -/
structure Unclosed (text : Text) : Prop where
  ne_nil : text ≠ []
  getLast?_ne_newline : text.getLast? ≠ some '\n'
  getLast?_ne_return : text.getLast? ≠ some '\r'

namespace Unclosed

variable {text : Text} (h : Unclosed text)
include h

/-- A newline closes a line, and is no part of its content. -/
theorem sameContent : SameContent text (text ++ ['\n']) := by
  rw [SameContent, dropLineBreak_of_getLast?_ne h.getLast?_ne_newline,
    dropLineBreak_append_newline h.getLast?_ne_return]

/-- What a text ends like depends on its last part. -/
theorem append (front : Text) : Unclosed (front ++ text) where
  ne_nil := by
    rw [Ne, List.append_eq_nil_iff, not_and]
    exact fun _ => h.ne_nil
  getLast?_ne_newline := by
    rw [List.getLast?_append_of_ne_nil _ h.ne_nil]
    exact h.getLast?_ne_newline
  getLast?_ne_return := by
    rw [List.getLast?_append_of_ne_nil _ h.ne_nil]
    exact h.getLast?_ne_return

end Unclosed

/-- A newline behind a dump whose last line is not closed closes that line. -/
theorem dumpTexts_append_newline {bytes : Bytes} (hne : bytes ≠ []) (hmark : bytes ≠ byteOrderMark)
    (hn : bytes.getLast? ≠ some newline) (hr : bytes.getLast? ≠ some carriageReturn) :
    ∃ front last, dumpTexts bytes = front ++ [last] ∧
      dumpTexts (bytes ++ [newline]) = front ++ [last ++ ['\n']] ∧ Unclosed last := by
  have hrest : dropMark bytes ≠ [] := by
    by_cases hpre : byteOrderMark <+: bytes
    · obtain ⟨rest, rfl⟩ := hpre
      rw [dropMark_mark_append]
      rintro rfl
      exact hmark (List.append_nil _)
    · rwa [dropMark_of_unmarked hpre]
  -- What is left behind a mark ends as the dump does.
  have hend : (dropMark bytes).getLast? = bytes.getLast? := by
    obtain ⟨front, hbytes⟩ := dropMark_suffix bytes
    rw [← List.getLast?_append_of_ne_nil front hrest, hbytes]
  obtain ⟨front, last, hlines, hclosed, hlast⟩ :=
    physicalLines_append_newline hrest (by rwa [hend])
  rw [hend] at hlast
  refine ⟨front.map Utf8.decode, Utf8.decode last, ?_, ?_, ?_, ?_, ?_⟩
  · rw [dumpTexts, dumpLines, hlines, List.map_append, List.map_singleton]
  · rw [dumpTexts, dumpLines, dropMark_append_newline, hclosed, List.map_append,
      List.map_singleton]
    congr 2
    exact Utf8.decode_append_byte (a := '\n') (by decide) last []
  · rw [Ne, Utf8.decode_eq_nil_iff]
    rintro rfl
    exact hne (List.getLast?_eq_none_iff.mp hlast.symm)
  · rwa [Ne, Utf8.getLast?_decode_eq_some_iff (by decide), hlast]
  · rwa [Ne, Utf8.getLast?_decode_eq_some_iff (by decide), hlast]

/-- A newline at the end changes the contents of no line. -/
theorem sameContents_append_newline {last : Text} (h : Unclosed last) (front : List Text) :
    SameContents (front ++ [last]) (front ++ [last ++ ['\n']]) := by
  induction front with
  | nil => exact .cons h.sameContent .nil
  | cons line front ih => exact .cons rfl ih

/-- A newline at the end is no part of the last target. The same holds of any text that the lines in
front of the first record go on with. -/
theorem RecordLines.cut_append_newline {last : Text} (h : Unclosed last) (width : Nat)
    (front : List Text) :
    (cut width (front ++ [last ++ ['\n']])).2.map link =
        (cut width (front ++ [last])).2.map link ∧
      ∀ text, SameContent (text ++ (cut width (front ++ [last])).1.flatten)
        (text ++ (cut width (front ++ [last ++ ['\n']])).1.flatten) := by
  induction front with
  | nil =>
    rw [List.nil_append, List.nil_append]
    by_cases hbar : BarAt width last
    · obtain ⟨source, text, rfl, hsize⟩ := barAt_iff_exists.mp hbar
      have hclosed := h.sameContent
      rw [SameContent, List.append_assoc, List.cons_append,
        dropLineBreak_append_cons (by decide) (by decide),
        dropLineBreak_append_cons (by decide) (by decide), List.append_cancel_left_eq,
        List.cons.injEq] at hclosed
      -- The newline is behind the bar, so it ends the only line of the record.
      rw [List.append_assoc, List.cons_append, cut_cons_bar hsize, cut_cons_bar hsize]
      refine ⟨?_, fun _ => rfl⟩
      simp [link, cut, hclosed.2]
    · have hbar' : ¬BarAt width (last ++ ['\n']) := mt (h.sameContent.barAt_iff width).mpr hbar
      rw [cut_cons_of_not_barAt hbar, cut_cons_of_not_barAt hbar']
      refine ⟨rfl, ?_⟩
      intro text
      rw [cut, List.flatten_singleton, List.flatten_singleton, ← List.append_assoc]
      exact (h.append text).sameContent
  | cons line front ih =>
    obtain ⟨hlinks, hfront⟩ := ih
    rw [List.cons_append, List.cons_append]
    by_cases hbar : BarAt width line
    · obtain ⟨source, text, rfl, hsize⟩ := barAt_iff_exists.mp hbar
      rw [cut_cons_bar hsize, cut_cons_bar hsize]
      refine ⟨?_, fun _ => rfl⟩
      -- The lines in front of the next record are the rest of this one.
      rw [List.map_cons, List.map_cons, hlinks, link, link, hfront text]
    · rw [cut_cons_of_not_barAt hbar, cut_cons_of_not_barAt hbar]
      refine ⟨hlinks, ?_⟩
      intro text
      rw [List.flatten_cons, List.flatten_cons, ← List.append_assoc, ← List.append_assoc]
      exact hfront (text ++ line)

/-- A newline at the end changes no item, in any dialect. -/
theorem items_append_newline {last : Text} (h : Unclosed last) (front : List Text)
    (dialect : Dialect) :
    dialect.items (front ++ [last ++ ['\n']]) = dialect.items (front ++ [last]) := by
  have hsame := sameContents_append_newline h front
  have hlined : dialect.width? = none →
      dialect.items (front ++ [last ++ ['\n']]) = dialect.items (front ++ [last]) := by
    intro hwidth
    exact (hsame.items_eq hwidth).symm
  cases dialect with
  | rfc => exact hlined rfl
  | variableWidth => exact hlined rfl
  | fixedWidth width =>
    have hlinks := (RecordLines.cut_append_newline h width front).1
    rw [hsame.items_fixedWidth (f := id) (by rw [hlinks, List.map_id]), Except.map_id,
      List.map_id]

/-! ## Whole dumps -/

/-- Line endings do not matter. A dump without carriage returns, and the same dump with `"\r\n"` in
place of every `"\n"`, are decoded to the same fields, links, error and line numbers; where sources
have a fixed width, the targets of the second one differ from those of the first one by the same
change. A dump that is not empty, is more than a mark, and does not end like a line break is decoded
in every dialect as it is with a newline behind it. -/
theorem decode_of_line_endings {source source' : Source} (hchunks : source.AllChunks)
    (hchunks' : source'.AllChunks) :
    (carriageReturn ∉ source.bytes → source'.bytes = returnNewlines source.bytes →
      (∀ dialect : Dialect, dialect.width? = none →
        decode dialect source' = decode dialect source) ∧
      ∀ width, decode (.fixedWidth width) source' =
        (decode (.fixedWidth width) source).mapLinks Link.crlfTarget) ∧
    (source.bytes ≠ [] → source.bytes ≠ byteOrderMark →
      source.bytes.getLast? ≠ some newline → source.bytes.getLast? ≠ some carriageReturn →
      source'.bytes = source.bytes ++ [newline] →
      ∀ dialect, decode dialect source' = decode dialect source) := by
  constructor
  · intro hreturn hbytes
    have hplain : ∀ line ∈ dumpTexts source.bytes, PlainLine line := by
      intro line
      exact plainLine_of_mem_dumpTexts hreturn
    have hsame := sameContents_crlf hplain
    constructor
    · intro dialect hwidth
      rw [decode_eq_ofLines hchunks', decode_eq_ofLines hchunks, hbytes, dumpTexts_returnNewlines]
      apply Decoded.ofLines_eq_of_sameContents hsame
      intro count
      exact ((hsame.drop count).items_eq hwidth).symm
    · intro width
      rw [decode_eq_ofLines hchunks', decode_eq_ofLines hchunks, hbytes, dumpTexts_returnNewlines]
      apply Decoded.ofLines_of_sameContents hsame
      intro count
      rw [← List.map_drop]
      apply items_map_crlf
      intro line hline
      exact hplain line (List.mem_of_mem_drop hline)
  · intro hne hmark hn hr hbytes dialect
    obtain ⟨front, last, hlines, hclosed, hlast⟩ := dumpTexts_append_newline hne hmark hn hr
    rw [decode_eq_ofLines hchunks', decode_eq_ofLines hchunks, hbytes, hlines, hclosed]
    apply Decoded.ofLines_eq_of_sameContents (sameContents_append_newline hlast front)
    intro count
    rcases Nat.le_total count front.length with hle | hge
    · rw [List.drop_append_of_le_length hle, List.drop_append_of_le_length hle]
      exact items_append_newline hlast _ dialect
    · -- At most the last line is left.
      rw [List.drop_append, List.drop_append, List.drop_eq_nil_of_le hge]
      cases count - front.length with
      | zero => exact items_append_newline hlast [] dialect
      | succ count => rw [List.drop_succ_cons, List.drop_succ_cons]

/-- The record `ab|x` goes on in a line `y`, which is no link where every line is one. -/
theorem decode_of_returns_and_last_newline :
    decode (.fixedWidth 2) [.chunk 0x61 [0x62, 0x7C, 0x78, 0x0D], .chunk 0x0A [0x79]] =
        ⟨[], [⟨['a', 'b'], ['x', '\r', '\n', 'y'], []⟩], none, 2⟩ ∧
      decode .variableWidth [.chunk 0x61 [0x62, 0x7C, 0x78, 0x0D], .chunk 0x0A [0x79]] =
        ⟨[], [⟨['a', 'b'], ['x'], []⟩], some ⟨2, .missingBar ['y']⟩, 2⟩ ∧
      decode (.fixedWidth 2) [.chunk 0x61 [0x62, 0x7C], .chunk 0x78 [0x0A, 0x79, 0x0A]] =
        ⟨[], [⟨['a', 'b'], ['x', '\n', 'y'], []⟩], none, 2⟩ := by
  have hplain : Source.AllChunks [.chunk 0x61 [0x62, 0x7C, 0x78, 0x0A, 0x79]] := by simp
  have hreturned : Source.AllChunks
      [.chunk 0x61 [0x62, 0x7C, 0x78, 0x0D], .chunk 0x0A [0x79]] := by simp
  have hclosed : Source.AllChunks
      [.chunk 0x61 [0x62, 0x7C], .chunk 0x78 [0x0A, 0x79, 0x0A]] := by simp
  have hreturns := (decode_of_line_endings hplain hreturned).1 (by decide) (by decide)
  have hnewline := (decode_of_line_endings hplain hclosed).2 (by decide) (by decide) (by decide)
    (by decide) (by decide)
  rw [hreturns.1 .variableWidth rfl, hreturns.2 2, hnewline]
  exact ⟨by decide +kernel, by decide +kernel, by decide +kernel⟩

end LinkDump
