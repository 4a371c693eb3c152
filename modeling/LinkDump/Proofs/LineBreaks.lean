import LinkDump.Proofs.TextLines

/-! # Line breaks
A line may be closed with a newline, or with a carriage return and a newline. Dropping a line break
undoes either, up to a carriage return that stood in front of a bare newline, and a text that is put
together from closed lines falls into the same lines again. -/

namespace LinkDump

/-- What closes a line. -/
inductive LineBreak
  | newline
  | returnNewline
  deriving Repr, DecidableEq

/-- The characters of a line break. -/
def LineBreak.text : LineBreak → Text
  | newline => ['\n']
  | returnNewline => ['\r', '\n']

/-! ## Dropping a line break -/

/-- The newline is dropped again, and nothing else unless a carriage return stands before it. -/
theorem dropLineBreak_append_newline {text : Text} (h : text.getLast? ≠ some '\r') :
    dropLineBreak (text ++ ['\n']) = text := by
  induction text with
  | nil => rfl
  | cons c text ih =>
    rw [List.cons_append, dropLineBreak.eq_4]
    · cases text with
      | nil => rfl
      | cons d text =>
        rw [List.getLast?_cons_cons] at h
        rw [ih h]
    · rintro - hnil
      exact absurd hnil (by simp)
    · rintro rfl hnil
      obtain rfl : text = [] := by simpa using hnil
      exact h rfl

/-- Both characters are dropped again, whatever stands before them. -/
theorem dropLineBreak_append_returnNewline (text : Text) :
    dropLineBreak (text ++ ['\r', '\n']) = text := by
  induction text with
  | nil => rfl
  | cons c text ih =>
    rw [List.cons_append, dropLineBreak.eq_4, ih]
    · rintro - hnil
      exact absurd hnil (by simp)
    · rintro - hnil
      have hlength := congrArg List.length hnil
      rw [List.length_append] at hlength
      simp at hlength

/-- What stands in front of the line break stays, also as the end of a longer line. -/
theorem dropLineBreak_append_cons {c : Char} (hn : c ≠ '\n') (hr : c ≠ '\r') (front back : Text) :
    dropLineBreak (front ++ c :: back) = front ++ c :: dropLineBreak back := by
  induction front with
  | nil => exact dropLineBreak_cons hn hr back
  | cons d front ih =>
    rw [List.cons_append, dropLineBreak.eq_4, ih, List.cons_append]
    · rintro - hnil
      simp at hnil
    · rintro - hnewline
      -- The rest of the line holds `c`, so it is more than a newline.
      have hmem : c ∈ ['\n'] := by
        rw [← hnewline]
        simp
      exact hn (List.mem_singleton.mp hmem)

/-- Dropping a line break drops no other characters. -/
theorem mem_dropLineBreak {c : Char} {text : Text} (h : c ∈ text) (hn : c ≠ '\n') (hr : c ≠ '\r') :
    c ∈ dropLineBreak text := by
  fun_induction dropLineBreak text with
  | case1 => exact h
  | case2 => simp [hn] at h
  | case3 => simp [hn, hr] at h
  | case4 d text _ _ ih =>
    rw [List.mem_cons] at h ⊢
    exact h.imp_right ih

/-- What is dropped is a line break or nothing, and not nothing if there is a newline at the end. -/
theorem exists_dropLineBreak_append (text : Text) :
    ∃ close : Option LineBreak, text = dropLineBreak text ++ close.elim [] LineBreak.text ∧
      (text.getLast? = some '\n' → close.isSome) := by
  fun_induction dropLineBreak text with
  | case1 => exact ⟨none, rfl, fun h => nomatch h⟩
  | case2 => exact ⟨some .newline, rfl, fun _ => rfl⟩
  | case3 => exact ⟨some .returnNewline, rfl, fun _ => rfl⟩
  | case4 c text hn hr ih =>
    obtain ⟨close, htext, hclose⟩ := ih
    refine ⟨close, ?_, ?_⟩
    · rw [List.cons_append, ← htext]
    · intro hlast
      apply hclose
      cases text with
      | nil =>
        obtain rfl : c = '\n' := by simpa using hlast
        exact (hn rfl rfl).elim
      | cons d text => rwa [List.getLast?_cons_cons] at hlast

/-- Dropping a line break adds no characters. -/
theorem mem_of_mem_dropLineBreak {c : Char} {line : Text} (h : c ∈ dropLineBreak line) :
    c ∈ line := by
  obtain ⟨close, hline, -⟩ := exists_dropLineBreak_append line
  rw [hline]
  exact List.mem_append_left _ h

/-- A text that does not end with a newline has no line break to drop. -/
theorem dropLineBreak_of_getLast?_ne {text : Text} (h : text.getLast? ≠ some '\n') :
    dropLineBreak text = text := by
  obtain ⟨close, htext, -⟩ := exists_dropLineBreak_append text
  cases close with
  | none => simpa using htext.symm
  | some close =>
    -- Both line breaks end with a newline.
    refine absurd ?_ h
    rw [htext, List.getLast?_append]
    cases close <;> rfl

/-! ## Rows -/

/-- A line and what closes it. -/
structure Row where
  text : Text
  close : LineBreak
  deriving Repr, DecidableEq

namespace Row

/-- The line with its line break. -/
def line (row : Row) : Text := row.text ++ row.close.text

/-- The line is told from its line break, unless it ends like one. -/
theorem dropLineBreak_line {row : Row} (h : row.text.getLast? ≠ some '\r') :
    dropLineBreak row.line = row.text := by
  obtain ⟨text, close⟩ := row
  cases close with
  | newline => exact dropLineBreak_append_newline h
  | returnNewline => exact dropLineBreak_append_returnNewline text

/-- A line break is blank, and so is a line that holds nothing else. -/
theorem isBlankLine_line {row : Row} (h : row.text = []) : isBlankLine row.line = true := by
  have hlast : row.text.getLast? ≠ some '\r' := by simp [h]
  rw [isBlankLine, dropLineBreak_line hlast, h]
  rfl

/-- A row starts as its text does, if that is not empty. -/
theorem head?_line {row : Row} (h : row.text ≠ []) : row.line.head? = row.text.head? := by
  obtain ⟨c, text, htext⟩ := List.exists_cons_of_ne_nil h
  rw [line, htext]
  rfl

/-- A text of rows starts as the first of them does. -/
theorem head?_flatMap_line {row : Row} (h : row.text ≠ []) (rows : List Row) :
    ((row :: rows).flatMap line).head? = row.text.head? := by
  obtain ⟨c, text, htext⟩ := List.exists_cons_of_ne_nil h
  rw [List.flatMap_cons, line, htext]
  rfl

/-- The first line of a text ends at its first newline. -/
theorem textLines_line_append {row : Row} (h : '\n' ∉ row.text) (rest : Text) :
    textLines (row.line ++ rest) = row.line :: textLines rest := by
  -- Both line breaks end in a newline, and there is no other one in the row.
  obtain ⟨front, hfront, hline⟩ : ∃ front, '\n' ∉ front ∧ row.line = front ++ ['\n'] := by
    obtain ⟨text, close⟩ := row
    cases close with
    | newline => exact ⟨text, h, rfl⟩
    | returnNewline =>
      refine ⟨text ++ ['\r'], ?_, ?_⟩
      · simpa using h
      · rw [line, LineBreak.text, List.append_assoc]
        rfl
  rw [hline, List.append_assoc, List.singleton_append, textLines_append_newline,
    splitOn_of_not_mem hfront]
  rfl

/-- Rows without newlines of their own are the lines of their text. -/
theorem textLines_flatMap_line {rows : List Row} (h : ∀ row ∈ rows, '\n' ∉ row.text) :
    textLines (rows.flatMap line) = rows.map line := by
  induction rows with
  | nil => rfl
  | cons row rows ih =>
    rw [List.forall_mem_cons] at h
    rw [List.flatMap_cons, textLines_line_append h.1, ih h.2, List.map_cons]

end Row

end LinkDump
