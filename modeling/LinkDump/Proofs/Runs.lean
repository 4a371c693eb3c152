import LinkDump.Text.Utf8
import Mathlib.Data.List.TakeWhile

/-! # Runs of characters
A text that starts with a run of characters of one class is cut behind that run in one way. So a
text can be cut at the first place of a given character, and what stands before that place and
behind it is known from the whole. -/

namespace LinkDump

/-- A run of characters of one class ends where the next character is not of that class. -/
theorem takeWhile_dropWhile_of_run {p : Char → Bool} {run rest : Text}
    (hrun : ∀ c ∈ run, p c = true) (hrest : ∀ c ∈ rest.head?, ¬p c = true) :
    (run ++ rest).takeWhile p = run ∧ (run ++ rest).dropWhile p = rest := by
  rw [List.takeWhile_append_of_pos hrun, List.dropWhile_append_of_pos hrun]
  cases rest with
  | nil => exact ⟨List.append_nil run, rfl⟩
  | cons c rest =>
    have hc := hrest c rfl
    rw [List.takeWhile_cons_of_neg hc, List.dropWhile_cons_of_neg hc]
    exact ⟨List.append_nil run, rfl⟩

section

variable {c : Char} {front front' back back' : Text}

/-- A text without a character differs from it everywhere. -/
theorem forall_bne_of_not_mem (h : c ∉ front) : ∀ d ∈ front, (d != c) = true := by
  intro d hd
  rw [bne_iff_ne]
  exact ne_of_mem_of_not_mem hd h

/-- What stands before the first place of a character is taken up to it. -/
theorem takeWhile_append_cons (h : c ∉ front) (back : Text) :
    (front ++ c :: back).takeWhile (· != c) = front :=
  (takeWhile_dropWhile_of_run (forall_bne_of_not_mem h) (by simp)).1

/-- What stands before the first place of a character is dropped up to it. -/
theorem dropWhile_append_cons (h : c ∉ front) (back : Text) :
    (front ++ c :: back).dropWhile (· != c) = c :: back :=
  (takeWhile_dropWhile_of_run (forall_bne_of_not_mem h) (by simp)).2

/-- A text is cut at the first place of a character in one way. -/
theorem eq_of_append_cons (h : c ∉ front) (h' : c ∉ front')
    (heq : front ++ c :: back = front' ++ c :: back') : front = front' ∧ back = back' := by
  have htake := congrArg (List.takeWhile (· != c)) heq
  rw [takeWhile_append_cons h, takeWhile_append_cons h'] at htake
  have hdrop := congrArg (List.dropWhile (· != c)) heq
  rw [dropWhile_append_cons h, dropWhile_append_cons h'] at hdrop
  exact ⟨htake, (List.cons.inj hdrop).2⟩

end

end LinkDump
