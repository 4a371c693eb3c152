import LinkDump.Proofs.HeaderLines
import Mathlib.Data.List.TakeWhile

/-! # Feeds of any lines
A scan of a header may be fed any lines, also behind one that it refused and behind one that ended
the header. Where it stands is a function of the lines alone, `Scanner.behind`: its fields are those
of the meta lines in front of the first blank line, and behind that line there are no more. One line
takes the scan behind some lines to the scan behind these and that one, so any number of lines does
the same. -/

namespace LinkDump

/-! ## Lines in front of a blank line -/

/-- The lines of a feed in front of its first blank line; all of them, if none is blank. -/
def linesBeforeBlank (fed : List Text) : List Text := fed.takeWhile fun line => !isBlankLine line

/-- The meta fields of some lines, in their order. A meta line that is refused has none. -/
def acceptedFields (lines : List Text) : List MetaField :=
  (lines.filter isMetaLine).filterMap fun line => (fieldOfLine line).toOption

section

variable {fed : List Text}

/-- Lines none of which is blank are followed by what follows them. -/
theorem linesBeforeBlank_append (h : ∀ line ∈ fed, isBlankLine line = false) (more : List Text) :
    linesBeforeBlank (fed ++ more) = fed ++ linesBeforeBlank more := by
  apply List.takeWhile_append_of_pos
  intro line hmem
  rw [h line hmem, Bool.not_false]

/-- Lines none of which is blank all come before the first blank line. -/
theorem linesBeforeBlank_of_forall (h : ∀ line ∈ fed, isBlankLine line = false) :
    linesBeforeBlank fed = fed := by
  have happend := linesBeforeBlank_append h []
  rw [List.append_nil] at happend
  exact happend.trans (List.append_nil fed)

/-- What is fed behind a blank line does not matter. -/
theorem linesBeforeBlank_append_of_exists (h : ∃ line ∈ fed, isBlankLine line = true)
    (more : List Text) : linesBeforeBlank (fed ++ more) = linesBeforeBlank fed := by
  rw [linesBeforeBlank, List.takeWhile_append, if_neg]
  · rfl
  · intro hlength
    have hall := (List.takeWhile_prefix _).eq_of_length hlength
    obtain ⟨line, hmem, hblank⟩ := h
    rw [← hall] at hmem
    have hnot := List.mem_takeWhile_imp hmem
    rw [hblank] at hnot
    cases hnot

/-- The accepted fields of lines are those of the first ones, and then those of the others. -/
theorem acceptedFields_append (lines more : List Text) :
    acceptedFields (lines ++ more) = acceptedFields lines ++ acceptedFields more := by
  rw [acceptedFields, List.filter_append, List.filterMap_append]
  rfl

/-- A meta line has its field, if that is accepted. -/
theorem acceptedFields_singleton_of_isMetaLine {line : Text} (h : isMetaLine line = true) :
    acceptedFields [line] = (fieldOfLine line).toOption.toList := by
  rw [acceptedFields, List.filter_cons_of_pos h, List.filter_nil, List.filterMap_cons]
  cases (fieldOfLine line).toOption <;> rfl

/-- A line that is no meta line has no field. -/
theorem acceptedFields_singleton_of_other {line : Text} (h : isMetaLine line = false) :
    acceptedFields [line] = [] := by
  rw [acceptedFields, List.filter_cons, h]
  rfl

end

namespace Scanner

/-- The scan behind some lines, said without feeding them to it. -/
def behind (fed : List Text) : Scanner where
  fields := acceptedFields (linesBeforeBlank fed)
  part := if fed.any isBlankLine then .blanks else .fields

/-- Feed lines to a scan one after the other, whatever it answers: the answers, and the scan after
them. -/
def feedAll (scanner : Scanner) : List Text → List (Except LineError Verdict) × Scanner
  | [] => ([], scanner)
  | raw :: lines =>
    let (answer, scanner) := scanner.feed raw
    let (answers, scanner) := scanner.feedAll lines
    (answer :: answers, scanner)

/-! ## One line more -/

section

variable {fed : List Text}

/-- Without a blank line a scan is still among the fields. -/
theorem behind_of_forall (h : ∀ line ∈ fed, isBlankLine line = false) :
    behind fed = ⟨acceptedFields fed, .fields⟩ := by
  have hany : fed.any isBlankLine = false := by simpa using h
  rw [behind, linesBeforeBlank_of_forall h, hany]
  rfl

/-- Behind a blank line a scan has the fields that were accepted before it. -/
theorem behind_of_exists (h : ∃ line ∈ fed, isBlankLine line = true) :
    behind fed = ⟨acceptedFields (linesBeforeBlank fed), .blanks⟩ := by
  rw [behind, List.any_eq_true.mpr h]
  rfl

/-- Behind a blank line a scan does not change. -/
theorem behind_append_of_exists (h : ∃ line ∈ fed, isBlankLine line = true) (more : List Text) :
    behind (fed ++ more) = behind fed := by
  have hmore : ∃ line ∈ fed ++ more, isBlankLine line = true := by
    obtain ⟨line, hmem, hblank⟩ := h
    exact ⟨line, List.mem_append_left more hmem, hblank⟩
  rw [behind_of_exists hmore, behind_of_exists h, linesBeforeBlank_append_of_exists h]

/-- The first blank line ends the fields and adds none. -/
theorem behind_append_blank (h : ∀ line ∈ fed, isBlankLine line = false) {raw : Text}
    (hraw : isBlankLine raw = true) : behind (fed ++ [raw]) = ⟨acceptedFields fed, .blanks⟩ := by
  have hexists : ∃ line ∈ fed ++ [raw], isBlankLine line = true :=
    ⟨raw, List.mem_append_right fed (List.mem_singleton_self raw), hraw⟩
  have hnone : linesBeforeBlank [raw] = [] := by
    rw [linesBeforeBlank, List.takeWhile_cons, hraw]
    rfl
  rw [behind_of_exists hexists, linesBeforeBlank_append h, hnone, List.append_nil]

/-- Any other line in front of all blank ones adds the field that it has. -/
theorem behind_append_of_not_blank (h : ∀ line ∈ fed, isBlankLine line = false) {raw : Text}
    (hraw : isBlankLine raw = false) :
    behind (fed ++ [raw]) = ⟨acceptedFields fed ++ acceptedFields [raw], .fields⟩ := by
  have hforall : ∀ line ∈ fed ++ [raw], isBlankLine line = false := by
    rw [List.forall_mem_append, List.forall_mem_singleton]
    exact ⟨h, hraw⟩
  rw [behind_of_forall hforall, acceptedFields_append]

/-- A line behind a blank one: more blanks, or the end of the header again. -/
theorem feed_behind_of_exists (h : ∃ line ∈ fed, isBlankLine line = true) (raw : Text) :
    (behind fed).feed raw =
      (.ok (if isBlankLine raw then .more else .done raw), behind fed) := by
  rw [behind_of_exists h]
  cases hraw : isBlankLine raw with
  | true => exact feed_of_isBlankLine hraw _ _
  | false => exact feed_of_other hraw _ HeaderPart.noConfusion

/-- Whatever is fed next, it takes the scan behind some lines to the scan behind one line more. -/
theorem feed_behind_snd (fed : List Text) (raw : Text) :
    ((behind fed).feed raw).2 = behind (fed ++ [raw]) := by
  by_cases h : ∃ line ∈ fed, isBlankLine line = true
  · rw [feed_behind_of_exists h, behind_append_of_exists h]
  · have hforall : ∀ line ∈ fed, isBlankLine line = false := by simpa using h
    rw [behind_of_forall hforall]
    cases hblank : isBlankLine raw with
    | true => rw [behind_append_blank hforall hblank, feed_of_isBlankLine hblank]
    | false =>
      rw [behind_append_of_not_blank hforall hblank]
      cases hmeta : isMetaLine raw with
      | true =>
        rw [feed_of_isMetaLine hmeta, acceptedFields_singleton_of_isMetaLine hmeta]
        cases fieldOfLine raw with
        | ok field => rfl
        | error e => exact congrArg (mk · .fields) (List.append_nil (acceptedFields fed)).symm
      | false =>
        rw [feed_of_other hblank _ fun _ => hmeta, acceptedFields_singleton_of_other hmeta,
          List.append_nil]

end

/-! ## Any number of lines -/

/-- A feed in two parts goes on where the first part ended. -/
theorem feedAll_append (scanner : Scanner) (fed more : List Text) :
    scanner.feedAll (fed ++ more) =
      ((scanner.feedAll fed).1 ++ ((scanner.feedAll fed).2.feedAll more).1,
        ((scanner.feedAll fed).2.feedAll more).2) := by
  induction fed generalizing scanner with
  | nil => rfl
  | cons raw fed ih =>
    rw [List.cons_append, feedAll, feedAll]
    simp only [ih]
    rfl

/-- There is one answer for each line that is fed. -/
theorem length_feedAll (scanner : Scanner) (fed : List Text) :
    (scanner.feedAll fed).1.length = fed.length := by
  induction fed generalizing scanner with
  | nil => rfl
  | cons raw fed ih => exact congrArg (· + 1) (ih (scanner.feed raw).2)

/-- Feeding more lines takes the scan behind some lines to the scan behind all of them. -/
theorem feedAll_behind_snd (fed more : List Text) :
    ((behind fed).feedAll more).2 = behind (fed ++ more) := by
  induction more generalizing fed with
  | nil => rw [feedAll, List.append_nil]
  | cons raw more ih =>
    calc ((behind fed).feedAll (raw :: more)).2
        = (((behind fed).feed raw).2.feedAll more).2 := rfl
      _ = ((behind (fed ++ [raw])).feedAll more).2 := by rw [feed_behind_snd]
      _ = behind (fed ++ raw :: more) := by rw [ih, List.append_assoc, List.singleton_append]

/-- A scan that was fed any lines, and the next line. The fields are those of the meta lines that
were accepted in front of the first blank line, in their order. As long as no line was blank, a meta
line adds its field or is refused with the error that its text has, the first blank line ends the
fields, and any other line ends the header and is given back as it is; a line that is refused or
given back leaves the scan as it was. Behind a blank line nothing is refused and nothing changes: a
blank line is skipped, and every other line, a meta line too, is given back as it is. -/
theorem scan_of_any_feed (fed : List Text) (raw : Text) (rest : List Text) :
    let scanner := (feedAll {} fed).2
    (feedAll {} (fed ++ raw :: rest)).1[fed.length]? = some (scanner.feed raw).1 ∧
    (feedAll {} (fed ++ [raw])).2 = (scanner.feed raw).2 ∧
    scanner.fields = acceptedFields (linesBeforeBlank fed) ∧
    ((∀ line ∈ fed, isBlankLine line = false) →
      (isMetaLine raw = true → scanner.feed raw = match fieldOfLine raw with
        | .ok field => (.ok .more, { scanner with fields := scanner.fields ++ [field] })
        | .error e => (.error e, scanner)) ∧
      (isBlankLine raw = true → scanner.feed raw = (.ok .more, { scanner with part := .blanks })) ∧
      (isMetaLine raw = false → isBlankLine raw = false →
        scanner.feed raw = (.ok (.done raw), scanner))) ∧
    ((∃ line ∈ fed, isBlankLine line = true) →
      scanner.feed raw = (.ok (if isBlankLine raw then .more else .done raw), scanner)) := by
  intro scanner
  have hscanner : scanner = behind fed := feedAll_behind_snd [] fed
  refine ⟨?_, ?_, ?_, ?_, ?_⟩
  · rw [feedAll_append, List.getElem?_append_right (length_feedAll {} fed).le, length_feedAll,
      Nat.sub_self]
    rfl
  · rw [feedAll_append]
    rfl
  · rw [hscanner]
    rfl
  · intro hforall
    rw [hscanner, behind_of_forall hforall]
    exact ⟨fun hmeta => feed_of_isMetaLine hmeta _, fun hblank => feed_of_isBlankLine hblank _ _,
      fun hmeta hblank => feed_of_other hblank _ fun _ => hmeta⟩
  · intro hexists
    rw [hscanner]
    exact feed_behind_of_exists hexists raw

/-- Behind a meta line, a link line that ends the header and a meta line that is refused, a meta
line is one more field; behind a blank line the same meta line ends the header. -/
theorem scan_of_feed_to_blank :
    let fed : List Text :=
      [['#', 'A', ':', ' ', 'x', '\r', '\n'], ['a', '|', '\n'], ['#', 'b', ':', '\n']]
    let raw : Text := ['#', 'C', '\t', 'y']
    (feedAll {} fed).2.feed raw = (.ok .more, ⟨[⟨['A'], ['x']⟩, ⟨['C'], ['y']⟩], .fields⟩) ∧
      (feedAll {} (fed ++ [[' ', '\t', '\n']])).2.feed raw =
        (.ok (.done raw), ⟨[⟨['A'], ['x']⟩], .blanks⟩) := by
  intro fed raw
  obtain ⟨-, -, -, hfields, -⟩ := scan_of_any_feed fed raw []
  obtain ⟨-, -, -, -, hblanks⟩ := scan_of_any_feed (fed ++ [[' ', '\t', '\n']]) raw []
  exact ⟨(hfields (by decide)).1 (by decide), hblanks (by decide)⟩

end Scanner

end LinkDump
