import LinkDump.Proofs.LineBreaks
import LinkDump.Proofs.DumpMeaning
import Mathlib.Data.List.Forall2

/-! # Nothing is lost
Where a bar always stands behind the source, a dump that is read to its end can be put together
again from its links: each is the source, a bar, the target, and a line break that was dropped. Only
the last one may have been without. A piece of a dump `Spells` a link if it is that, with anything
that is dropped; pieces are the lines of the dump, or the lines of a record joined. -/

namespace LinkDump

/-! ## Pieces -/

/-- A text is the source of a link, a bar, and what the target is left of without its line break. -/
def Spells (piece : Text) (link : Link) : Prop :=
  ∃ rest, piece = link.source ++ '|' :: rest ∧ link.target = dropLineBreak rest

/-- A line whose first bar ends the source spells its link. -/
theorem Link.spells_of_ofFirstBar {raw : Text} {link : Link} (h : ofFirstBar raw = .ok link) :
    Spells raw link := by
  rw [ofFirstBar] at h
  split at h
  · cases h
  next c target hdrop =>
    cases h
    refine ⟨target, ?_, rfl⟩
    -- The rest starts with the character at which the walk has stopped, which is a bar.
    have hbar : c = '|' := by
      have hstop := List.head?_dropWhile_not (· != '|') raw
      rw [hdrop] at hstop
      simpa using hstop
    conv => lhs; rw [← List.takeWhile_append_dropWhile (p := (· != '|')) (l := raw), hdrop]
    rw [hbar]

/-- The lines of a record, joined, spell its link. -/
theorem RecordLines.spells_link (record : RecordLines) :
    Spells record.lines.flatten record.link := by
  refine ⟨record.text ++ record.more.flatten, ?_, rfl⟩
  rw [lines, List.flatten_cons, first, List.append_assoc, List.cons_append]
  rfl

/-- Lines that end in a newline still do when they are joined. -/
theorem getLast?_flatten_of_forall {lines : List Text} (hne : lines ≠ [])
    (h : ∀ line ∈ lines, line.getLast? = some '\n') : lines.flatten.getLast? = some '\n' := by
  have hlast := h (lines.getLast hne) (List.getLast_mem hne)
  rw [← List.dropLast_concat_getLast hne, List.flatten_append, List.flatten_singleton,
    List.getLast?_append, hlast]
  rfl

/-- Only the last record of a text may be without a newline at its end. -/
theorem RecordLines.getLast?_of_mem_dropLast {records : List RecordLines} {text : Text}
    (hlines : textLines text = records.flatMap RecordLines.lines) {piece : Text}
    (hpiece : piece ∈ (records.map fun record => record.lines.flatten).dropLast) :
    piece.getLast? = some '\n' := by
  rw [← List.map_dropLast] at hpiece
  obtain ⟨record, hrecord, rfl⟩ := List.mem_map.mp hpiece
  apply getLast?_flatten_of_forall (List.cons_ne_nil _ _)
  intro line hline
  -- The lines of this record stand before those of the last one.
  have hne : records ≠ [] := by
    rintro rfl
    cases hrecord
  have hmem : line ∈ (textLines text).dropLast := by
    rw [hlines, ← List.dropLast_concat_getLast hne, List.flatMap_append,
      List.dropLast_append_of_ne_nil (by simp [RecordLines.lines])]
    exact List.mem_append_left _ (List.mem_flatMap.mpr ⟨record, hrecord, hline⟩)
  exact getLast?_of_mem_dropLast_textLines hmem

/-! ## Links and what closes them -/

/-- A link, and the line break that closes it, if any. -/
structure ClosedLink where
  link : Link
  close : Option LineBreak
  deriving Repr, DecidableEq

/-- The text of a link with its line break. -/
def ClosedLink.text (closed : ClosedLink) : Text :=
  closed.link.source ++ '|' :: closed.link.target ++ closed.close.elim [] LineBreak.text

/-- A piece is the link that it spells and what closes it. -/
theorem Spells.exists_close {piece : Text} {link : Link} (h : Spells piece link) :
    ∃ close, piece = ClosedLink.text ⟨link, close⟩ ∧
      (piece.getLast? = some '\n' → close.isSome) := by
  obtain ⟨rest, rfl, htarget⟩ := h
  obtain ⟨close, hrest, hclose⟩ := exists_dropLineBreak_append rest
  refine ⟨close, ?_, ?_⟩
  · rw [ClosedLink.text, htarget, List.append_assoc, List.cons_append, ← hrest]
  · intro hlast
    apply hclose
    -- The bar before the rest is no newline.
    cases rest with
    | nil => simp at hlast
    | cons c rest =>
      rw [List.getLast?_append, List.getLast?_cons_cons] at hlast
      simpa using hlast

/-- Pieces that spell links are these links, each closed in its way. -/
theorem exists_closedLinks {pieces : List Text} {links : List Link}
    (h : List.Forall₂ Spells pieces links)
    (hends : ∀ piece ∈ pieces.dropLast, piece.getLast? = some '\n') :
    ∃ closed : List ClosedLink, closed.map ClosedLink.link = links ∧
      pieces.flatten = closed.flatMap ClosedLink.text ∧
      ∀ before ∈ closed.dropLast, before.close.isSome := by
  induction h with
  | nil => exact ⟨[], rfl, rfl, List.forall_mem_nil _⟩
  | @cons piece link pieces links hspells hrest ih =>
    obtain ⟨close, hpiece, hclose⟩ := hspells.exists_close
    cases hrest with
    | nil => exact ⟨[⟨link, close⟩], rfl, by simp [hpiece], List.forall_mem_nil _⟩
    | @cons next link' pieces links hnext hrest =>
      rw [List.dropLast_cons_cons, List.forall_mem_cons] at hends
      obtain ⟨closed, hlinks, hflatten, hclosed⟩ := ih hends.2
      refine ⟨⟨link, close⟩ :: closed, ?_, ?_, ?_⟩
      · rw [List.map_cons, hlinks]
      · rw [List.flatten_cons, List.flatMap_cons, hflatten, ← hpiece]
      · cases closed with
        | nil => cases hlinks
        | cons first closed =>
          rw [List.dropLast_cons_cons, List.forall_mem_cons]
          exact ⟨hclose hends.1, hclosed⟩

/-! ## Whole dumps -/

/-- A dump that is read to its end falls into pieces that spell its links. -/
theorem exists_pieces_of_decode {dialect : Dialect} (hdialect : dialect ≠ .rfc) {text : Text}
    (hmeta : text.head? ≠ some '#') (hmark : text.head? ≠ some '\uFEFF') {source : Source}
    (hchunks : source.AllChunks) (hbytes : source.bytes = Utf8.encode text)
    (hend : (decode dialect source).failure = none) :
    ∃ pieces : List Text, pieces.flatten = text ∧
      List.Forall₂ Spells pieces (decode dialect source).links ∧
      ∀ piece ∈ pieces.dropLast, piece.getLast? = some '\n' := by
  have hdump : dumpTexts source.bytes = textLines text := by
    rw [hbytes, dumpTexts_encode hmark]
  -- Without a `#` in front there is no header, and all lines are those of links.
  have hnone : metaLines (dumpTexts source.bytes) = [] := by
    by_contra hne
    rw [← ne_eq, metaLines_ne_nil_iff, hdump, head?_textLines] at hne
    exact hmeta hne
  have hlines : linkTexts source.bytes = textLines text := by
    rw [linkTexts, headerLength_of_nil hnone, List.drop_zero, hdump]
  have hfields : (metaLines (dumpTexts source.bytes)).map fieldOfLine = List.map .ok [] := by
    rw [hnone]
    rfl
  cases dialect with
  | rfc => exact absurd rfl hdialect
  | variableWidth =>
    have hparse := map_parse_of_decode hchunks rfl hfields hend
    refine ⟨textLines text, flatten_textLines text, ?_, ?_⟩
    · rw [hlines, ← List.forall₂_eq_eq_eq, List.forall₂_map_left_iff,
        List.forall₂_map_right_iff] at hparse
      exact hparse.imp fun _ _ => Link.spells_of_ofFirstBar
    · intro piece hpiece
      exact getLast?_of_mem_dropLast_textLines hpiece
  | fixedWidth width =>
    obtain ⟨records, hrecords, hlinks⟩ := exists_records_of_decode hchunks hfields hend
    rw [hlines] at hrecords
    refine ⟨records.map fun record => record.lines.flatten, ?_, ?_, ?_⟩
    · rw [← flatten_textLines text, hrecords, List.flatMap_def, List.flatten_flatten, List.map_map]
      rfl
    · rw [hlinks, List.forall₂_map_left_iff, List.forall₂_map_right_iff, List.forall₂_same]
      intro record _
      exact record.spells_link
    · intro piece hpiece
      exact RecordLines.getLast?_of_mem_dropLast hrecords hpiece

/-- Decoding loses nothing where a bar stands behind every source. If a dump without a header, and
without a mark, is read to its end, then it is exactly its links in order: the source, a bar, the
target and a line break, which only the last link may lack. This holds however the bytes are cut
into chunks. -/
theorem dump_of_decode {dialect : Dialect} (hdialect : dialect ≠ .rfc) {text : Text}
    (hmeta : text.head? ≠ some '#') (hmark : text.head? ≠ some '\uFEFF') {source : Source}
    (hchunks : source.AllChunks) (hbytes : source.bytes = Utf8.encode text)
    (hend : (decode dialect source).failure = none) :
    ∃ closed : List ClosedLink, closed.map ClosedLink.link = (decode dialect source).links ∧
      text = closed.flatMap ClosedLink.text ∧ ∀ before ∈ closed.dropLast, before.close.isSome := by
  obtain ⟨pieces, hflatten, hspells, hends⟩ :=
    exists_pieces_of_decode hdialect hmeta hmark hchunks hbytes hend
  obtain ⟨closed, hlinks, htext, hclosed⟩ := exists_closedLinks hspells hends
  refine ⟨closed, hlinks, ?_, hclosed⟩
  rw [← hflatten, htext]

/-- Two records, closed in different ways. The first one has three lines, the second of them empty,
and the last line of the second one ends with a carriage return, which is part of its target. -/
theorem dump_of_two_records :
    ∃ closed : List ClosedLink,
      closed.map ClosedLink.link =
        (decode (.fixedWidth 2) (.ofBytes (Utf8.encode ['é', '|', 'x', '\n', '\r', '\n', 'y', '|',
          '\r', '\n', '|', 'a', '|', 'z', '\r']))).links ∧
      ['é', '|', 'x', '\n', '\r', '\n', 'y', '|', '\r', '\n', '|', 'a', '|', 'z', '\r'] =
        closed.flatMap ClosedLink.text ∧
      ∀ before ∈ closed.dropLast, before.close.isSome := by
  have hdialect : Dialect.fixedWidth 2 ≠ .rfc := by decide
  exact dump_of_decode hdialect (by decide) (by decide) (by simp [Source.ofBytes])
    (Source.bytes_ofBytes _) (by decide +kernel)

end LinkDump
