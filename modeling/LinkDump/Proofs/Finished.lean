import LinkDump.Session

/-! # Readers that are done
After the end and after an error a reader gives the same replies for ever: the meta fields it has,
and no link. -/

namespace LinkDump

/-- The reply to a call once nothing more will be read. -/
def Reply.afterEnd (known : List MetaField) : Call → Reply
  | .fields => fields known
  | .link | .item => nothing

namespace Reader

/-- A call for an item is answered like a call for a link. -/
theorem call_item (reader : Reader) : reader.call .item = reader.call .link := by
  rw [call, call, next]
  rcases reader.readLink with ⟨_ | link, reader'⟩ | ⟨e, reader'⟩ <;> rfl

/-- A reader that is done gives the fields that it has. -/
theorem readFields_of_done {reader : Reader} (h : reader.phase = .done) :
    reader.readFields = .ok reader.fields reader := by
  rw [readFields, h]

/-- A reader that is done has no further link. -/
theorem readLink_of_done {reader : Reader} (h : reader.phase = .done) :
    reader.readLink = .ok none reader := by
  rw [readLink, readFields_of_done h]
  simp only [h]

/-- A reader that is done answers from what it has, and nothing changes. -/
theorem call_of_done {reader : Reader} (h : reader.phase = .done) (c : Call) :
    reader.call c = (Reply.afterEnd reader.fields c, reader) := by
  have hfields := readFields_of_done h
  have hlink := readLink_of_done h
  cases c with
  | fields =>
    rw [call, hfields]
    rfl
  | link =>
    rw [call, hlink]
    rfl
  | item =>
    rw [call_item, call, hlink]
    rfl

/-- All further calls on a reader that is done are answered so. -/
theorem transcript_of_done {reader : Reader} (h : reader.phase = .done) (calls : List Call) :
    reader.transcript calls =
      (calls.map fun c => ⟨Reply.afterEnd reader.fields c, reader.line⟩, reader) := by
  rw [transcript]
  induction calls with
  | nil => rfl
  | cons c calls ih => rw [transcript_cons, call_of_done h, ih, List.map_cons]

/-- Whatever is called first, an error in the header is its reply. -/
theorem call_of_readFields_eq_error {reader reader' : Reader} {e : DecodeError}
    (h : reader.readFields = .error e reader') (c : Call) :
    reader.call c = (.failed e, reader') := by
  have hlink : reader.readLink = .error e reader' := by rw [readLink, h]
  cases c with
  | fields =>
    rw [call, h]
    rfl
  | link =>
    rw [call, hlink]
    rfl
  | item =>
    rw [call_item, call, hlink]
    rfl

/-- Whatever is called first, a scan of the header that succeeds comes before the first link. -/
theorem readLink_of_readFields_eq_ok {reader reader' : Reader} {fields : List MetaField}
    (h : reader.readFields = .ok fields reader') (hphase : reader'.phase = .links) :
    reader.readLink = reader'.readLink := by
  have hagain : reader'.readFields = .ok reader'.fields reader' := by rw [readFields, hphase]
  rw [readLink, readLink, h, hagain]

/-! ## How a reader gets there -/

/-- A header that fails is the last thing that is read. -/
theorem phase_of_readFields {reader reader' : Reader} {e : DecodeError}
    (h : reader.readFields = .error e reader') : reader'.phase = .done := by
  rw [readFields] at h
  split at h
  · split at h
    · cases h
    · cases h
      rfl
  · cases h

/-- A call that gives no link is the last one that does anything. -/
theorem phase_readLink (reader : Reader) :
    match reader.readLink with
    | .ok (some _) _ => True
    | .ok none reader' => reader'.phase = .done
    | .error _ reader' => reader'.phase = .done := by
  rw [readLink]
  cases hfields : reader.readFields with
  | error e reader' => exact phase_of_readFields hfields
  | ok fields reader' =>
    simp only
    cases hphase : reader'.phase with
    | done => exact hphase
    | header | links =>
      rcases reader'.cursor.readLink reader'.dialect with ⟨_ | link, cursor⟩ | ⟨cause, cursor⟩
      · rfl
      · trivial
      · rfl

/-- Once all links have been read the reader is done. -/
theorem phase_readLinks (reader : Reader) : reader.readLinks.2.2.phase = .done := by
  fun_induction readLinks reader with
  | case1 reader reader₁ hread =>
    have hphase := reader.phase_readLink
    rwa [hread] at hphase
  | case2 reader e reader₁ hread =>
    have hphase := reader.phase_readLink
    rwa [hread] at hphase
  | case3 reader link reader₁ hread links failure reader₂ hrest ih =>
    rw [hrest] at ih
    exact ih

end Reader

end LinkDump
