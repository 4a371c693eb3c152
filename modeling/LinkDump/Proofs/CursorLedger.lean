import LinkDump.Proofs.Causes
import Mathlib.Data.List.Forall2

/-! # The ledger of a cursor
A cursor loses no bytes, gives none twice and does not reorder them, whatever is done with it one
after another, as long as nothing is handed back but the line that was read last. The `Ledger` of a
cursor says what has left its source, and what has been handed out of that; it is `Balanced` if the
two agree with each other and with the cursor. Lulls may come anywhere, and end a line where they
do. Failures are left out, since a failure loses what had been read of its line. -/

namespace LinkDump

/-! ## Lines read -/

/-- Bytes in front of a line move its end, and no more. -/
theorem newline_not_mem_dropLast_append {front line : Bytes} (hfront : newline ∉ front)
    (hline : newline ∉ line.dropLast) : newline ∉ (front ++ line).dropLast := by
  cases line with
  | nil =>
    rw [List.append_nil]
    exact fun hmem => hfront (List.dropLast_subset front hmem)
  | cons b line =>
    rw [List.dropLast_append_of_ne_nil (List.cons_ne_nil b line), List.mem_append, not_or]
    exact ⟨hfront, hline⟩

/-- The only newline of a first line is its last byte. -/
theorem newline_not_mem_dropLast_firstLine (bytes : Bytes) :
    newline ∉ (firstLine bytes).dropLast := by
  induction bytes with
  | nil => exact List.not_mem_nil
  | cons b bytes ih =>
    rw [firstLine]
    split
    · exact List.not_mem_nil
    next hb =>
      have hfront : newline ∉ [b] := by simpa using Ne.symm hb
      exact newline_not_mem_dropLast_append hfront ih

namespace Source

/-- The only newline of a line that is read is its last byte. -/
theorem newline_not_mem_dropLast_of_readLine {source source' : Source} {line : Bytes}
    (h : source.readLine = .ok line source') : newline ∉ line.dropLast := by
  induction source generalizing line with
  | nil =>
    cases h
    exact List.not_mem_nil
  | cons piece source ih =>
    cases piece with
    | lull =>
      cases h
      exact List.not_mem_nil
    | failure reason => cases h
    | chunk b rest =>
      rw [readLine] at h
      split at h
      · cases h
        exact newline_not_mem_dropLast_firstLine _
      next hmem =>
        split at h
        next line' source'' hread =>
          cases h
          exact newline_not_mem_dropLast_append hmem (ih hread)
        · cases h

/-- The bytes that a source has lost between two moments. -/
def lost (before after : Source) : Bytes :=
  before.bytes.take (before.bytes.length - after.bytes.length)

/-- What a source has lost is what used to stand in front of the rest. -/
theorem lost_eq {before after : Source} {bytes : Bytes} (h : before.bytes = bytes ++ after.bytes) :
    before.lost after = bytes := by
  rw [lost, h, List.length_append, Nat.add_sub_cancel, List.take_left]

end Source

/-! ## Ledgers -/

/-- What is done with a cursor. -/
inductive Cursor.Use
  /-- Read a line with its line break. -/
  | rawLine
  /-- Read a line without its line break. -/
  | line
  /-- Peek at the next byte. -/
  | byte
  /-- Consume a byte order mark. -/
  | mark
  /-- Hand a line back. -/
  | handBack (line : Text)
  deriving Repr, DecidableEq

/-- What has left a source. -/
inductive Taken
  /-- A byte order mark that was found. -/
  | mark
  /-- Anything else that was read at once. -/
  | line (raw : Bytes)
  deriving Repr, DecidableEq

namespace Taken

/-- The bytes that have left the source. -/
def bytes : Taken → Bytes
  | mark => byteOrderMark
  | line raw => raw

/-- The bytes, unless they are a mark. -/
def line? : Taken → Option Bytes
  | mark => none
  | line raw => some raw

/-- Bytes that were read at once, if there were any. -/
def ofBytes : Bytes → List Taken
  | [] => []
  | b :: bytes => [line (b :: bytes)]

end Taken

/-- A line that was handed out. -/
inductive Handed
  /-- With its line break. -/
  | whole (line : Text)
  /-- Without its line break. -/
  | cut (line : Text)
  deriving Repr, DecidableEq

/-- Whether a line that was handed out is what these bytes say. -/
def Handed.Shows : Handed → Bytes → Prop
  | whole line, raw => line = Utf8.decode raw
  | cut line, raw => line = dropLineBreak (Utf8.decode raw)

/-- A cursor, what has left its source so far, and the lines that were handed out and not handed
back, both in order. -/
structure Ledger where
  cursor : Cursor
  taken : List Taken := []
  handed : List Handed := []
  deriving Repr, DecidableEq

namespace Ledger

/-- The ledger of a cursor that nothing has been done with. -/
def ofSource (source : Source) : Ledger := { cursor := { source } }

/-- The lines that were read from the source, in order. -/
def lines (ledger : Ledger) : List Bytes := ledger.taken.filterMap Taken.line?

/-- Go on to another cursor, with what its source has lost on the way and what was handed out. -/
def advance (ledger : Ledger) (cursor : Cursor) (handed : List Handed) : Ledger where
  cursor := cursor
  taken := ledger.taken ++ Taken.ofBytes (ledger.cursor.source.lost cursor.source)
  handed := ledger.handed ++ handed

/-- Enter what is done with the cursor. -/
def enter (ledger : Ledger) : Cursor.Use → Except LineError Ledger
  | .rawLine =>
    match ledger.cursor.nextRawLine with
    | .ok line cursor => .ok (ledger.advance cursor (line.toList.map .whole))
    | .error e _ => .error e
  | .line =>
    match ledger.cursor.nextLine with
    | .ok line cursor => .ok (ledger.advance cursor (line.toList.map .cut))
    | .error e _ => .error e
  | .byte =>
    match ledger.cursor.peekByte with
    | .ok _ cursor => .ok (ledger.advance cursor [])
    | .error e _ => .error e
  | .mark =>
    match ledger.cursor.consumeMark with
    | .ok true cursor => .ok { ledger with cursor, taken := ledger.taken ++ [.mark] }
    | .ok false cursor => .ok (ledger.advance cursor [])
    | .error e _ => .error e
  | .handBack line =>
    match ledger.cursor.pushBack line with
    | .ok () cursor => .ok { ledger with cursor, handed := ledger.handed.dropLast }
    | .error e _ => .error e

/-- Enter one thing after another. -/
def enterAll : List Cursor.Use → Ledger → Except LineError Ledger
  | [], ledger => .ok ledger
  | use :: uses, ledger =>
    match ledger.enter use with
    | .ok ledger => enterAll uses ledger
    | .error e => .error e

/-- Whether something may be done. A line may be handed back only while the slot is empty, and only
if it is the last one that was handed out, with its line break. -/
def Allows (ledger : Ledger) : Cursor.Use → Prop
  | .handBack line => ledger.cursor.slot = .empty ∧ ledger.handed.getLast? = some (.whole line)
  | .rawLine | .line | .byte | .mark => True

instance (ledger : Ledger) : (use : Cursor.Use) → Decidable (ledger.Allows use)
  | .handBack _ => inferInstanceAs (Decidable (_ ∧ _))
  | .rawLine | .line | .byte | .mark => .isTrue trivial

/-- Whether one thing after another may be done. -/
def AllowsAll : List Cursor.Use → Ledger → Prop
  | [], _ => True
  | use :: uses, ledger =>
    ledger.Allows use ∧ match ledger.enter use with
      | .ok next => AllowsAll uses next
      | .error _ => True

instance decidableAllowsAll :
    (uses : List Cursor.Use) → (ledger : Ledger) → Decidable (ledger.AllowsAll uses)
  | [], _ => .isTrue trivial
  | use :: uses, ledger =>
    have : Decidable (match ledger.enter use with
        | .ok next => AllowsAll uses next
        | .error _ => True) :=
      match ledger.enter use with
      | .ok next => decidableAllowsAll uses next
      | .error _ => .isTrue trivial
    inferInstanceAs (Decidable (_ ∧ _))

/-- What has left the source and what is still in it are all that was ever in it. Each line was read
up to its newline, if it has one, and was counted. The lines that were handed out, and the one that
waits in the slot, are these lines, in order and each once. -/
structure Balanced (source : Source) (ledger : Ledger) : Prop where
  failures_eq : ledger.cursor.source.failures = []
  bytes_eq : source.bytes = ledger.taken.flatMap Taken.bytes ++ ledger.cursor.source.bytes
  lines_cut : ∀ raw ∈ ledger.lines, raw ≠ [] ∧ newline ∉ raw.dropLast
  line_eq : ledger.cursor.line = ledger.lines.length
  shows : List.Forall₂ Handed.Shows
    (ledger.handed ++ ledger.cursor.slot.held.toList.map .whole) ledger.lines

end Ledger

/-! ## What each operation reads -/

namespace Cursor

/-- On the way from one cursor to another nothing has left the source, or one line has, and was
counted. -/
inductive Pulls : Cursor → List Bytes → Cursor → Prop
  | nothing {cursor cursor' : Cursor} (hbytes : cursor.source.bytes = cursor'.source.bytes)
      (hline : cursor'.line = cursor.line) : Pulls cursor [] cursor'
  | line {cursor cursor' : Cursor} {raw : Bytes} (hne : raw ≠ []) (hcut : newline ∉ raw.dropLast)
      (hbytes : cursor.source.bytes = raw ++ cursor'.source.bytes)
      (hline : cursor'.line = cursor.line + 1) : Pulls cursor [raw] cursor'

namespace Pulls

variable {cursor cursor' : Cursor} {raws : List Bytes}

/-- What has left the source stood in front of the rest. -/
theorem bytes_eq (h : cursor.Pulls raws cursor') :
    cursor.source.bytes = raws.flatten ++ cursor'.source.bytes := by
  cases h with
  | nothing hbytes hline => exact hbytes
  | line hne hcut hbytes hline => simpa using hbytes

/-- Lines are counted when they are pulled. -/
theorem line_eq (h : cursor.Pulls raws cursor') : cursor'.line = cursor.line + raws.length := by
  cases h with
  | nothing hbytes hline => exact hline
  | line hne hcut hbytes hline => exact hline

/-- No line is empty, and none goes on behind a newline. -/
theorem lines_cut (h : cursor.Pulls raws cursor') :
    ∀ raw ∈ raws, raw ≠ [] ∧ newline ∉ raw.dropLast := by
  intro raw hraw
  cases h with
  | nothing hbytes hline => cases hraw
  | line hne hcut hbytes hline =>
    obtain rfl := List.mem_singleton.mp hraw
    exact ⟨hne, hcut⟩

end Pulls

variable {cursor : Cursor}

/-- A read gives the line that waits, or the one that it pulls, and leaves the slot empty. -/
theorem nextRawLine_pulls (h : cursor.source.failures = []) :
    ∃ line raws cursor', cursor.nextRawLine = .ok line cursor' ∧ cursor.Pulls raws cursor' ∧
      cursor'.source.failures = [] ∧ cursor'.slot = .empty ∧
      line.toList = cursor.slot.held.toList ++ raws.map Utf8.decode := by
  obtain ⟨source, ⟨held⟩, count⟩ := cursor
  cases held with
  | some text => exact ⟨some text, [], _, rfl, .nothing rfl rfl, h, rfl, rfl⟩
  | none =>
    obtain ⟨raw, source', hread, hfailures⟩ :=
      Source.exists_ok_of_accounted source.accounted_readLine h
    have hbytes := Source.bytes_of_readLine_eq_ok hread
    have hcut := Source.newline_not_mem_dropLast_of_readLine hread
    cases raw with
    | nil =>
      refine ⟨none, [], ⟨source', .empty, count⟩, ?_, .nothing hbytes rfl, hfailures, rfl, rfl⟩
      simp only [nextRawLine, Slot.take, hread]
      rfl
    | cons b bytes =>
      refine ⟨some (Utf8.decode (b :: bytes)), [b :: bytes], ⟨source', .empty, count + 1⟩, ?_,
        .line (List.cons_ne_nil b bytes) hcut hbytes rfl, hfailures, rfl, rfl⟩
      simp only [nextRawLine, Slot.take, hread]
      rfl

/-- A peek pulls nothing. -/
theorem peekByte_pulls (h : cursor.source.failures = []) :
    ∃ first cursor', cursor.peekByte = .ok first cursor' ∧ cursor.Pulls [] cursor' ∧
      cursor'.source.failures = [] ∧ cursor'.slot = cursor.slot := by
  obtain ⟨source, ⟨held⟩, count⟩ := cursor
  cases held with
  | some text => exact ⟨_, _, rfl, .nothing rfl rfl, h, rfl⟩
  | none =>
    obtain ⟨bytes, source', hlook, hfailures⟩ :=
      Source.exists_ok_of_accounted source.accounted_look h
    refine ⟨bytes.head?, ⟨source', .empty, count⟩, ?_,
      .nothing (Source.bytes_of_look_eq_ok hlook).symm rfl, hfailures, rfl⟩
    simp only [peekByte, hlook]
    rfl

/-- A search for a mark either takes the mark and nothing else, or pulls the line that only began
like one, which then waits. -/
theorem consumeMark_pulls (h : cursor.source.failures = []) :
    (∃ cursor', cursor.consumeMark = .ok true cursor' ∧
      cursor.source.bytes = byteOrderMark ++ cursor'.source.bytes ∧
      cursor'.source.failures = [] ∧ cursor'.slot = cursor.slot ∧ cursor'.line = cursor.line) ∨
    ∃ raws cursor', cursor.consumeMark = .ok false cursor' ∧ cursor.Pulls raws cursor' ∧
      cursor'.source.failures = [] ∧
      cursor'.slot.held.toList = cursor.slot.held.toList ++ raws.map Utf8.decode := by
  obtain ⟨source, ⟨held⟩, count⟩ := cursor
  cases held with
  | some text => exact .inr ⟨[], _, rfl, .nothing rfl rfl, h, rfl⟩
  | none =>
    obtain ⟨matched, source', hmatch, hfailures⟩ :=
      Source.exists_ok_of_accounted (source.accounted_matchMark 0) h
    obtain ⟨-, hle, hbytes⟩ := Source.bytes_of_matchMark_eq_ok (Nat.zero_le _) hmatch
    rw [List.take_zero, List.nil_append] at hbytes
    by_cases hfull : matched = byteOrderMark.length
    · refine .inl ⟨⟨source', .empty, count⟩, ?_, ?_, hfailures, rfl, rfl⟩
      · simp only [consumeMark, Slot.isEmpty, Option.isNone_none, if_true, hmatch, if_pos hfull]
        rfl
      · rw [hbytes, hfull, List.take_length]
    by_cases hzero : matched = 0
    · refine .inr ⟨[], ⟨source', .empty, count⟩, ?_, .nothing ?_ rfl, hfailures, rfl⟩
      · simp only [consumeMark, Slot.isEmpty, Option.isNone_none, if_true, hmatch, if_neg hfull,
          if_pos hzero]
        rfl
      · rw [hbytes, hzero, List.take_zero, List.nil_append]
    · -- Part of a mark has left the source, and takes the rest of its line along.
      obtain ⟨rest, source'', hread, hfailures'⟩ :=
        Source.exists_ok_of_accounted source'.accounted_readLine hfailures
      have hnone : newline ∉ byteOrderMark.take matched :=
        fun hmem => absurd (List.mem_of_mem_take hmem) (by decide)
      have hne : byteOrderMark.take matched ++ rest ≠ [] := by
        intro hnil
        rw [List.append_eq_nil_iff, List.take_eq_nil_iff] at hnil
        exact hnil.1.elim hzero (by decide)
      have hcut := newline_not_mem_dropLast_append hnone
        (Source.newline_not_mem_dropLast_of_readLine hread)
      refine .inr ⟨[byteOrderMark.take matched ++ rest],
        ⟨source'', ⟨some (Utf8.decode (byteOrderMark.take matched ++ rest))⟩, count + 1⟩, ?_,
        .line hne hcut ?_ rfl, hfailures', rfl⟩
      · simp only [consumeMark, Slot.isEmpty, Option.isNone_none, if_true, hmatch, if_neg hfull,
          if_neg hzero, restoreLine, hread]
        rfl
      · rw [hbytes, Source.bytes_of_readLine_eq_ok hread, List.append_assoc]

end Cursor

/-! ## The ledger is balanced -/

/-- Lines that were handed out with their line breaks might have been handed out without. -/
theorem Handed.shows_cut {front : List Handed} {texts : List Text} {raws : List Bytes}
    (h : List.Forall₂ Shows (front ++ texts.map .whole) raws) :
    List.Forall₂ Shows (front ++ (texts.map dropLineBreak).map .cut) raws := by
  induction front generalizing raws with
  | nil =>
    rw [List.nil_append, List.forall₂_map_left_iff] at h
    rw [List.nil_append, List.map_map, List.forall₂_map_left_iff]
    exact h.imp fun _ _ hshows => congrArg dropLineBreak hshows
  | cons first front ih =>
    cases h with
    | cons hfirst hrest => exact .cons hfirst (ih hrest)

namespace Ledger

variable {source : Source} {ledger : Ledger}

/-- With nothing done yet the ledger is balanced. -/
theorem balanced_ofSource (h : source.failures = []) : (ofSource source).Balanced source where
  failures_eq := h
  bytes_eq := rfl
  lines_cut := List.forall_mem_nil _
  line_eq := rfl
  shows := .nil

/-- Bytes that were pulled are entered as the line that they are. -/
theorem ofBytes_lost {cursor cursor' : Cursor} {raws : List Bytes}
    (h : cursor.Pulls raws cursor') :
    Taken.ofBytes (cursor.source.lost cursor'.source) = raws.map .line := by
  cases h with
  | nothing hbytes hline =>
    have hlost : cursor.source.lost cursor'.source = [] := Source.lost_eq hbytes
    rw [hlost]
    rfl
  | @line _ raw hne hcut hbytes hline =>
    obtain ⟨b, bytes, rfl⟩ := List.exists_cons_of_ne_nil hne
    rw [Source.lost_eq hbytes]
    rfl

/-- What is pulled, and either handed out or left to wait, keeps a ledger balanced. -/
theorem Balanced.advance {cursor : Cursor} {raws : List Bytes} {handed : List Handed}
    (h : ledger.Balanced source) (hpulls : ledger.cursor.Pulls raws cursor)
    (hfailures : cursor.source.failures = [])
    (hshows : List.Forall₂ Handed.Shows
      (ledger.handed ++ handed ++ cursor.slot.held.toList.map .whole) (ledger.lines ++ raws)) :
    (ledger.advance cursor handed).Balanced source := by
  have htaken : (ledger.advance cursor handed).taken = ledger.taken ++ raws.map .line := by
    rw [Ledger.advance, ofBytes_lost hpulls]
  have hlines : (ledger.advance cursor handed).lines = ledger.lines ++ raws := by
    rw [lines, htaken, List.filterMap_append, List.filterMap_map, lines]
    congr 1
    exact List.filterMap_some
  refine ⟨hfailures, ?_, ?_, ?_, ?_⟩
  · have hflat : (raws.map Taken.line).flatMap Taken.bytes = raws.flatten := by
      rw [List.flatMap_map]
      exact List.flatMap_id'
    rw [htaken, List.flatMap_append, hflat, List.append_assoc, h.bytes_eq, hpulls.bytes_eq]
    rfl
  · rw [hlines, List.forall_mem_append]
    exact ⟨h.lines_cut, hpulls.lines_cut⟩
  · rw [hlines, List.length_append, ← h.line_eq]
    exact hpulls.line_eq
  · rw [hlines]
    exact hshows

/-- A mark that was taken is no line. -/
theorem Balanced.takeMark {cursor : Cursor} (h : ledger.Balanced source)
    (hbytes : ledger.cursor.source.bytes = byteOrderMark ++ cursor.source.bytes)
    (hfailures : cursor.source.failures = []) (hslot : cursor.slot = ledger.cursor.slot)
    (hline : cursor.line = ledger.cursor.line) :
    Balanced source { ledger with cursor, taken := ledger.taken ++ [.mark] } := by
  have hlines : lines { ledger with cursor, taken := ledger.taken ++ [.mark] } = ledger.lines := by
    rw [lines, List.filterMap_append, lines]
    exact List.append_nil _
  refine ⟨hfailures, ?_, ?_, ?_, ?_⟩
  · rw [h.bytes_eq, hbytes, List.flatMap_append, List.append_assoc]
    rfl
  · rw [hlines]
    exact h.lines_cut
  · rw [hlines, ← h.line_eq]
    exact hline
  · rw [hlines, hslot]
    exact h.shows

/-- The last line that was handed out waits again once it is handed back. -/
theorem Balanced.handBack {line : Text} (h : ledger.Balanced source)
    (hslot : ledger.cursor.slot = .empty) (hlast : ledger.handed.getLast? = some (.whole line)) :
    Balanced source
      { ledger with
        cursor := { ledger.cursor with slot := ⟨some line⟩ }
        handed := ledger.handed.dropLast } := by
  refine ⟨h.failures_eq, h.bytes_eq, h.lines_cut, h.line_eq, ?_⟩
  have hshows := h.shows
  rw [hslot] at hshows
  have hback : ledger.handed.dropLast ++ [.whole line] = ledger.handed :=
    List.dropLast_append_getLast? _ hlast
  rw [← hback] at hshows
  simpa [lines] using hshows

/-- Lines that are pulled come behind the line that waits, and are shown by what they are decoded
to. -/
theorem Balanced.shows_pulled {texts : List Text} {raws : List Bytes} (h : ledger.Balanced source)
    (htexts : texts = ledger.cursor.slot.held.toList ++ raws.map Utf8.decode) :
    List.Forall₂ Handed.Shows (ledger.handed ++ texts.map .whole) (ledger.lines ++ raws) := by
  have hraws : List.Forall₂ Handed.Shows ((raws.map Utf8.decode).map .whole) raws := by
    rw [List.map_map, List.forall₂_map_left_iff, List.forall₂_same]
    intro raw _
    rfl
  rw [htexts, List.map_append, ← List.append_assoc]
  exact List.rel_append h.shows hraws

/-- Whatever is allowed can be done, and keeps the ledger balanced. -/
theorem Balanced.enter (h : ledger.Balanced source) {use : Cursor.Use}
    (hallows : ledger.Allows use) : ∃ next, ledger.enter use = .ok next ∧ next.Balanced source := by
  cases use with
  | rawLine =>
    obtain ⟨line, raws, cursor, hread, hpulls, hfailures, hslot, hgiven⟩ :=
      Cursor.nextRawLine_pulls h.failures_eq
    have henter : ledger.enter .rawLine = .ok (ledger.advance cursor (line.toList.map .whole)) := by
      simp only [Ledger.enter, hread]
    refine ⟨_, henter, h.advance hpulls hfailures ?_⟩
    -- The line that waited, or the one that was pulled, is handed out, and none waits now.
    rw [hslot]
    simpa using h.shows_pulled hgiven
  | line =>
    obtain ⟨line, raws, cursor, hread, hpulls, hfailures, hslot, hgiven⟩ :=
      Cursor.nextRawLine_pulls h.failures_eq
    have hread' : ledger.cursor.nextLine = .ok (line.map dropLineBreak) cursor := by
      rw [Cursor.nextLine, hread]
    have henter : ledger.enter .line =
        .ok (ledger.advance cursor ((line.map dropLineBreak).toList.map .cut)) := by
      simp only [Ledger.enter, hread']
    refine ⟨_, henter, h.advance hpulls hfailures ?_⟩
    rw [hslot, Option.toList_map]
    simpa using Handed.shows_cut (h.shows_pulled hgiven)
  | byte =>
    obtain ⟨first, cursor, hpeek, hpulls, hfailures, hslot⟩ := Cursor.peekByte_pulls h.failures_eq
    have henter : ledger.enter .byte = .ok (ledger.advance cursor []) := by
      simp only [Ledger.enter, hpeek]
    refine ⟨_, henter, h.advance hpulls hfailures ?_⟩
    rw [hslot, List.append_nil, List.append_nil]
    exact h.shows
  | mark =>
    rcases Cursor.consumeMark_pulls h.failures_eq with
      ⟨cursor, hmark, hbytes, hfailures, hslot, hline⟩ |
      ⟨raws, cursor, hmark, hpulls, hfailures, hheld⟩
    · have henter : ledger.enter .mark =
          .ok { ledger with cursor, taken := ledger.taken ++ [.mark] } := by
        simp only [Ledger.enter, hmark]
      exact ⟨_, henter, h.takeMark hbytes hfailures hslot hline⟩
    · have henter : ledger.enter .mark = .ok (ledger.advance cursor []) := by
        simp only [Ledger.enter, hmark]
      refine ⟨_, henter, h.advance hpulls hfailures ?_⟩
      -- What was pulled only began like a mark, and waits behind what was handed out.
      rw [List.append_nil]
      exact h.shows_pulled hheld
  | handBack line =>
    obtain ⟨hslot, hlast⟩ := hallows
    have hput : ledger.cursor.pushBack line =
        .ok () { ledger.cursor with slot := ⟨some line⟩ } := by
      rw [Cursor.pushBack, hslot, Slot.put_empty]
    have henter : ledger.enter (.handBack line) = .ok
        { ledger with
          cursor := { ledger.cursor with slot := ⟨some line⟩ }
          handed := ledger.handed.dropLast } := by
      simp only [Ledger.enter, hput]
    exact ⟨_, henter, h.handBack hslot hlast⟩

/-- A balanced ledger stays balanced, whatever is done that is allowed. -/
theorem Balanced.enterAll (h : ledger.Balanced source) {uses : List Cursor.Use}
    (hallows : ledger.AllowsAll uses) :
    ∃ last, ledger.enterAll uses = .ok last ∧ last.Balanced source := by
  induction uses generalizing ledger with
  | nil => exact ⟨ledger, rfl, h⟩
  | cons use uses ih =>
    obtain ⟨next, henter, hnext⟩ := h.enter hallows.1
    have hrest := hallows.2
    rw [henter] at hrest
    obtain ⟨last, hlast, hbalanced⟩ := ih hnext hrest
    refine ⟨last, ?_, hbalanced⟩
    rw [Ledger.enterAll, henter]
    exact hlast

/-- What may be done one after another may also be broken off. -/
theorem AllowsAll.of_isPrefix {front uses : List Cursor.Use} (h : ledger.AllowsAll uses)
    (hfront : front <+: uses) : ledger.AllowsAll front := by
  induction front generalizing uses ledger with
  | nil => trivial
  | cons use front ih =>
    obtain ⟨back, rfl⟩ := hfront
    obtain ⟨hallows, hrest⟩ := h
    refine ⟨hallows, ?_⟩
    cases henter : ledger.enter use with
    | error e => trivial
    | ok next =>
      simp only [henter] at hrest
      exact ih hrest (List.prefix_append front back)

end Ledger

/-- A cursor neither loses nor reorders bytes, and gives none twice. Its source may be cut into
chunks and have lulls in any way, and it may be used in any way as long as nothing is handed back
but the line that was read last, to an empty slot. Then all that is done is done without an error,
and at every point the ledger is balanced. -/
theorem Cursor.ledger_balanced {source : Source} (hfailures : source.failures = [])
    {uses : List Cursor.Use} (hallows : (Ledger.ofSource source).AllowsAll uses)
    {front : List Cursor.Use} (hfront : front <+: uses) :
    ∃ ledger, (Ledger.ofSource source).enterAll front = .ok ledger ∧ ledger.Balanced source :=
  (Ledger.balanced_ofSource hfailures).enterAll (hallows.of_isPrefix hfront)

/-- Two bytes of a mark, a lull, the end of a line and the start of the next one, another lull, and
a whole mark in front of a last line. -/
theorem Cursor.ledger_balanced_of_lulls :
    ∃ ledger, (Ledger.ofSource [.chunk 0xEF [0xBB], .lull, .chunk 0x61 [0x0A, 0x62], .lull,
        .chunk 0xEF [0xBB, 0xBF, 0x63]]).enterAll
          [.mark, .rawLine, .handBack ['\uFFFD', 'a', '\n'], .line, .byte, .line, .mark, .rawLine] =
        .ok ledger ∧
      ledger.Balanced [.chunk 0xEF [0xBB], .lull, .chunk 0x61 [0x0A, 0x62], .lull,
        .chunk 0xEF [0xBB, 0xBF, 0x63]] := by
  have hallows : (Ledger.ofSource [.chunk 0xEF [0xBB], .lull, .chunk 0x61 [0x0A, 0x62], .lull,
      .chunk 0xEF [0xBB, 0xBF, 0x63]]).AllowsAll
        [.mark, .rawLine, .handBack ['\uFFFD', 'a', '\n'], .line, .byte, .line, .mark,
          .rawLine] := by
    decide
  exact Cursor.ledger_balanced rfl hallows List.prefix_rfl

end LinkDump
