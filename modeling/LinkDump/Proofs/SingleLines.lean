import LinkDump.Proofs.CursorLedger
import LinkDump.Proofs.LineEndings

/-! # Single lines
A line that is read has no newline but its last character, wherever it comes from and whatever its
bytes decode to. So nothing that is cut out of it has one, and lines that are put together again
fall into the same lines at their newlines. -/

namespace LinkDump

/-- A text with no newline but its last character. -/
def SingleLine (line : Text) : Prop := '\n' ∉ line.dropLast

/-- Decoding puts a newline only where its byte is. -/
theorem singleLine_decode {line : Bytes} (h : newline ∉ line.dropLast) :
    SingleLine (Utf8.decode line) := by
  rcases List.eq_nil_or_concat' line with rfl | ⟨front, b, rfl⟩
  · exact List.not_mem_nil
  · rw [List.dropLast_concat] at h
    have hfront : '\n' ∉ Utf8.decode front := mt (Utf8.mem_decode_iff (by decide)).mp h
    by_cases hb : b = newline
    · have hdecode : Utf8.decode (front ++ [newline]) = Utf8.decode front ++ ['\n'] :=
        Utf8.decode_append_byte (a := '\n') (by decide) front []
      rw [hb, SingleLine, hdecode, List.dropLast_concat]
      exact hfront
    · intro hmem
      have hbyte := (Utf8.mem_decode_iff (a := '\n') (by decide)).mp (List.dropLast_subset _ hmem)
      rcases List.mem_append.mp hbyte with hmem | hmem
      · exact h hmem
      · exact hb (List.mem_singleton.mp hmem).symm

namespace SingleLine

variable {line front back : Text} {c : Char}

/-- Behind any of its characters a line has no newline but its last character, and none in front of
it. -/
theorem of_append_cons (h : SingleLine (front ++ c :: back)) : '\n' ∉ front ∧ SingleLine back := by
  rw [SingleLine, List.dropLast_append_cons, List.mem_append, not_or] at h
  refine ⟨h.1, fun hmem => h.2 ?_⟩
  cases back with
  | nil => cases hmem
  | cons d back => exact List.mem_cons_of_mem c hmem

/-- A line that ends with a newline has it nowhere else. -/
theorem exists_of_getLast? (h : SingleLine line) (hlast : line.getLast? = some '\n') :
    ∃ front, '\n' ∉ front ∧ line = front ++ ['\n'] := by
  obtain ⟨front, rfl⟩ := List.getLast?_eq_some_iff.mp hlast
  rw [SingleLine, List.dropLast_concat] at h
  exact ⟨front, h, rfl⟩

/-- Without its line break a line has no newline. -/
theorem not_mem_dropLineBreak (h : SingleLine line) : '\n' ∉ dropLineBreak line := by
  fun_induction dropLineBreak line with
  | case1 => exact List.not_mem_nil
  | case2 => exact List.not_mem_nil
  | case3 => exact List.not_mem_nil
  | case4 c text hn hr ih =>
    rw [List.mem_cons, not_or]
    cases text with
    | nil => exact ⟨fun hc => hn hc.symm rfl, List.not_mem_nil⟩
    | cons d text =>
      rw [SingleLine, List.dropLast_cons_cons, List.mem_cons, not_or] at h
      exact ⟨h.1, ih h.2⟩

end SingleLine

/-! ## Pieces -/

/-- A piece between two separators has only characters of the text, and no separator. -/
theorem ne_and_mem_of_mem_splitOn {sep c : Char} {text piece : Text} (h : piece ∈ text.splitOn sep)
    (hc : c ∈ piece) : c ≠ sep ∧ c ∈ text := by
  induction text generalizing piece with
  | nil =>
    rw [List.splitOn_nil, List.mem_singleton] at h
    rw [h] at hc
    cases hc
  | cons d text ih =>
    rw [List.splitOn_cons_eq_if_modifyHead] at h
    split at h
    · rcases List.mem_cons.mp h with rfl | h
      · cases hc
      · exact (ih h hc).imp_right (List.mem_cons_of_mem d)
    next hd =>
      obtain ⟨first, more, hsplit⟩ := List.exists_cons_of_ne_nil (List.splitOn_ne_nil sep text)
      rw [hsplit, List.modifyHead_cons] at h
      rw [hsplit] at ih
      rcases List.mem_cons.mp h with rfl | h
      · rcases List.mem_cons.mp hc with rfl | hc
        · exact ⟨by simpa using hd, List.mem_cons_self⟩
        · exact (ih List.mem_cons_self hc).imp_right (List.mem_cons_of_mem d)
      · exact (ih (List.mem_cons_of_mem first h) hc).imp_right (List.mem_cons_of_mem d)

/-- There is one piece more than there are separators. -/
theorem length_splitOn (sep : Char) (text : Text) :
    (text.splitOn sep).length = text.count sep + 1 := by
  induction text with
  | nil => rfl
  | cons c text ih =>
    rw [List.splitOn_cons_eq_if_modifyHead, List.count_cons]
    split
    · rw [List.length_cons, ih]
    · rw [List.length_modifyHead, ih]

/-! ## Lines that are put together -/

/-- The only newline of a physical line is its last byte. -/
theorem newline_not_mem_dropLast_of_mem_physicalLines {bytes line : Bytes}
    (h : line ∈ physicalLines bytes) : newline ∉ line.dropLast := by
  obtain ⟨front, hfront, rfl | rfl⟩ := exists_of_mem_physicalLines h
  · exact fun hmem => hfront (List.dropLast_subset line hmem)
  · rwa [List.dropLast_concat]

/-- Only the last line of some bytes may lack its newline. -/
theorem pairwise_physicalLines (bytes : Bytes) :
    (physicalLines bytes).Pairwise fun line _ => line.getLast? = some newline := by
  fun_induction physicalLines bytes with
  | case1 => exact .nil
  | case2 bytes ih => exact .cons (fun _ _ => rfl) ih
  | case3 b bytes hb hlines ih => exact List.pairwise_singleton _ _
  | case4 b bytes hb line lines hlines ih =>
    rw [hlines, List.pairwise_cons] at ih
    refine .cons (fun next hnext => ?_) ih.2
    rw [List.getLast?_cons, ih.1 next hnext]
    rfl

/-- A newline with something behind it is no line break at the end. -/
theorem dropLineBreak_append_newline_append {back : Text} (h : back ≠ []) (front : Text) :
    dropLineBreak (front ++ '\n' :: back) = front ++ '\n' :: dropLineBreak back := by
  induction front with
  | nil =>
    rw [List.nil_append, dropLineBreak.eq_4]
    · rfl
    · exact fun _ => h
    · exact fun hreturn => absurd hreturn (by decide)
  | cons c front ih =>
    rw [List.cons_append, dropLineBreak.eq_4, ih, List.cons_append]
    · exact fun _ hnil => by simp at hnil
    · rintro - hnewline
      -- Something stands behind the newline, so the rest of the line is longer than one.
      have hlength := congrArg List.length hnewline
      have hpos := List.length_pos_iff.mpr h
      rw [List.length_append, List.length_cons, List.length_singleton] at hlength
      omega

/-- Lines that are put together and lose their last line break fall into the same lines again at
their newlines, each without its line break. -/
theorem forall₂_splitOn_dropLineBreak {line : Text} {lines : List Text}
    (hsingle : ∀ line' ∈ line :: lines, SingleLine line')
    (hclosed : (line :: lines).Pairwise fun line' _ => line'.getLast? = some '\n')
    (hne : ∀ line' ∈ lines, line' ≠ []) :
    List.Forall₂ (fun piece line' => ∃ close : Option LineBreak,
        line' = piece ++ close.elim [] LineBreak.text)
      ((dropLineBreak (line :: lines).flatten).splitOn '\n') (line :: lines) := by
  induction lines generalizing line with
  | nil =>
    have hline := hsingle line List.mem_cons_self
    rw [List.flatten_singleton, splitOn_of_not_mem hline.not_mem_dropLineBreak]
    obtain ⟨close, hline, -⟩ := exists_dropLineBreak_append line
    exact .cons ⟨close, hline⟩ .nil
  | cons next lines ih =>
    rw [List.pairwise_cons] at hclosed
    rw [List.forall_mem_cons] at hsingle
    obtain ⟨front, hfront, rfl⟩ :=
      hsingle.1.exists_of_getLast? (hclosed.1 next List.mem_cons_self)
    rw [List.forall_mem_cons] at hne
    have hflat : (next :: lines).flatten ≠ [] := by
      rw [List.flatten_cons]
      exact List.append_ne_nil_of_left_ne_nil hne.1 _
    rw [List.flatten_cons, List.append_assoc, List.singleton_append,
      dropLineBreak_append_newline_append hflat, List.splitOn_append_cons_self_of_not_mem hfront]
    exact .cons ⟨some .newline, rfl⟩ (ih hsingle.2 hclosed.2 hne.2)

end LinkDump
