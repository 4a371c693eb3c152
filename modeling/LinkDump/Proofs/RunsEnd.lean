import LinkDump.Proofs.Fused
import LinkDump.Proofs.Linewise

/-! # Every run ends
What is left to do is the unread bytes, and one more for a line that waits. Each link takes from it,
so a source of finitely many bytes gives finitely many links, whatever else it does. The other way
round, each link uses up a line that is counted and not handed back. -/

namespace LinkDump

/-- Whether a call was answered with a link. -/
def Entry.isLink (entry : Entry) : Bool :=
  match entry.reply with
  | .link _ => true
  | .fields _ | .nothing | .failed _ => false

/-- At least `count` lines have been read for good: a line that waits is counted, but not among
them. -/
def Cursor.HasTaken (count : Nat) (cursor : Cursor) : Prop :=
  count + cursor.slot.count ≤ cursor.line

/-- With a line in hand one more line has been read, as long as it is not handed back. -/
theorem Cursor.linewise_hasTaken (count : Nat) :
    Linewise (HasTaken count)
      fun _ cursor => cursor.slot = .empty ∧ HasTaken (count + 1) cursor where
  look _ h := h
  take h := by
    refine ⟨rfl, ?_⟩
    simp only [HasTaken, Slot.count_of_some, Slot.count_empty] at h ⊢
    omega
  pull h _ _ := by
    refine ⟨rfl, ?_⟩
    simp only [HasTaken, Slot.count_empty] at h ⊢
    omega
  letGo h := by
    obtain ⟨-, h⟩ := h
    simp only [HasTaken] at h ⊢
    omega
  handBack h := by
    obtain ⟨hslot, h⟩ := h
    simp only [HasTaken, hslot, Slot.count_of_some, Slot.count_empty] at h ⊢
    omega

namespace Reader

variable {reader : Reader} {count : Nat}

/-- The step: a call that reads on ends the reading, or leaves less to do, and one for the fields
leaves no more. -/
theorem isLast_or_pending_call (reader : Reader) (c : Call) :
    (reader.call c).1.isLast ∨
      (reader.call c).2.cursor.pending + (if c.readsOn then 1 else 0) ≤ reader.cursor.pending := by
  have hlink : (reader.call .link).1.isLast ∨
      (reader.call .link).2.cursor.pending + 1 ≤ reader.cursor.pending := by
    rw [call]
    rcases hread : reader.readLink with ⟨_ | link, reader₁⟩ | ⟨e, reader₁⟩
    · exact .inl rfl
    · exact .inr (pending_lt_of_readLink hread)
    · exact .inl rfl
  cases c with
  | fields =>
    rw [call]
    cases hread : reader.readFields with
    | ok fields reader₁ => exact .inr (pending_le_of_readFields hread)
    | error e reader₁ => exact .inl rfl
  | link => exact hlink
  | item =>
    rw [call_item]
    exact hlink

/-- The run: enough calls that read on come to the end. -/
theorem exists_isLast {calls : List Call}
    (h : reader.cursor.pending < calls.countP Call.readsOn) :
    ∃ entry ∈ (reader.transcript calls).1, entry.reply.isLast := by
  induction calls generalizing reader with
  | nil => exact absurd h (Nat.not_lt_zero _)
  | cons c calls ih =>
    rw [transcript, transcript_cons]
    rcases reader.isLast_or_pending_call c with hlast | hle
    · exact ⟨_, List.mem_cons_self, hlast⟩
    · rw [List.countP_cons] at h
      obtain ⟨entry, hmem, hlast⟩ := ih (show (reader.call c).2.cursor.pending < _ by omega)
      exact ⟨entry, List.mem_cons_of_mem _ hmem, hlast⟩

/-- The run: a link for each line at most, beside those that were read before. -/
theorem countP_isLink_le_line (h : reader.cursor.HasTaken count) (calls : List Call) :
    count + (reader.transcript calls).1.countP Entry.isLink ≤ (reader.transcript calls).2.line := by
  induction calls generalizing reader count with
  | nil => exact Nat.le_of_add_right_le h
  | cons c calls ih =>
    rw [transcript, transcript_cons, ← transcript, List.countP_cons]
    cases hreply : (reader.call c).1 with
    | link link =>
      have hnext : (reader.call c).2.cursor.HasTaken (count + 1) :=
        (Cursor.linewise_hasTaken count).call_of_link (Cursor.linewise_hasTaken (count + 1))
          (fun _ _ hhand => hhand.2) h hreply
      have hrun := ih hnext
      simp only [Entry.isLink, if_true]
      omega
    | fields fields | nothing | failed e =>
      exact ih ((Cursor.linewise_hasTaken count).call h c)

end Reader

/-- Every run ends, whatever the source does and however its dialect cuts lines. A session with more
calls for links than the source has bytes, and any calls for the fields among them, comes to the end
or to an error. On the way each link takes from what is left to do, which is the unread bytes and
one more for a line that waits, and there are never more links than lines that have been read. -/
theorem runs_end (dialect : Dialect) (source : Source) :
    (∀ calls : List Call, source.bytes.length < calls.countP Call.readsOn →
      ∃ entry ∈ ((Reader.ofSource dialect source).transcript calls).1, entry.reply.isLast) ∧
    ∀ before : List Call,
      let entries := ((Reader.ofSource dialect source).transcript before).1
      let reader := ((Reader.ofSource dialect source).transcript before).2
      entries.countP Entry.isLink ≤ reader.line ∧
      ∀ (c : Call) (link : Link), (reader.call c).1 = .link link →
        (reader.call c).2.cursor.pending < reader.cursor.pending := by
  refine ⟨fun calls h => Reader.exists_isLast h, ?_⟩
  intro before entries reader
  constructor
  · have hfresh : (Reader.ofSource dialect source).cursor.HasTaken 0 := Nat.le_refl 0
    have hrun := Reader.countP_isLink_le_line hfresh before
    rwa [Nat.zero_add] at hrun
  · intro c link hreply
    exact Reader.pending_lt_of_readLink (Reader.readLink_of_call_eq_link hreply)

/-- Four bytes, a look that gives nothing and one that fails. Five calls for links come to an end,
which here is the line behind the lull, and the first of them leaves two bytes less to read. -/
theorem runs_end_behind_lull :
    let source : Source :=
      [.chunk 0x7C [0x0A], .lull, .chunk 0x0A [], .failure ['x'], .chunk 0x7C []]
    (∃ entry ∈ ((Reader.ofSource (.fixedWidth 0) source).transcript
        [.link, .fields, .item, .link, .link, .item]).1, entry.reply.isLast) ∧
      ((Reader.ofSource (.fixedWidth 0) source).call .link).2.cursor.pending < 4 := by
  intro source
  obtain ⟨hends, hstep⟩ := runs_end (.fixedWidth 0) source
  exact ⟨hends _ (by decide), (hstep []).2 .link {} (by decide +kernel)⟩

end LinkDump
