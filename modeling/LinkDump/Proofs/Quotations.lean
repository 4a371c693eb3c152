import LinkDump.Proofs.Runs
import LinkDump.Text.Quoted

/-! # Quotations can be read back
A quoted text shows by itself where it ends, and so do a quoted character and a number that is not
followed by a further digit: `SelfDelimiting`. What is spelled in that way can be told from the
spelling, with anything behind it. Nothing that is spelled has a control character, whatever the
text that is quoted holds. -/

namespace LinkDump

/-- Spellings that show where they end: what is spelled, and what follows it, are known from the
whole. -/
def SelfDelimiting {α : Type} (spell : α → Text) : Prop :=
  ∀ {a b : α} {rest rest' : Text}, spell a ++ rest = spell b ++ rest' → a = b ∧ rest = rest'

/-- A control character: one of the first block, or one of the second block or the delete character
in front of it. -/
def IsControl (c : Char) : Prop := c.toNat < 0x20 ∨ (0x7F ≤ c.toNat ∧ c.toNat < 0xA0)

instance (c : Char) : Decidable (IsControl c) := inferInstanceAs (Decidable (_ ∨ _))

/-- A text without control characters. -/
def ControlFree (text : Text) : Prop := ∀ c ∈ text, ¬IsControl c

instance (text : Text) : Decidable (ControlFree text) :=
  List.decidableBAll (fun c => ¬IsControl c) text

/-- What is spelled is known from the spelling alone. -/
theorem SelfDelimiting.injective {α : Type} {spell : α → Text} (h : SelfDelimiting spell) :
    Function.Injective spell := by
  intro a b heq
  exact (h (congrArg (· ++ []) heq)).1

namespace ControlFree

variable {text text' : Text}

/-- Texts without control characters have none when they are joined. -/
theorem append (h : ControlFree text) (h' : ControlFree text') : ControlFree (text ++ text') :=
  List.forall_mem_append.mpr ⟨h, h'⟩

/-- A character that is no control character may be put in front. -/
theorem cons {c : Char} (hc : ¬IsControl c) (h : ControlFree text) : ControlFree (c :: text) :=
  List.forall_mem_cons.mpr ⟨hc, h⟩

/-- Neither of the two characters of a line break is in it. -/
theorem not_mem (h : ControlFree text) : '\n' ∉ text ∧ '\r' ∉ text :=
  ⟨fun hmem => h _ hmem (by decide), fun hmem => h _ hmem (by decide)⟩

end ControlFree

/-! ## Numbers -/

section Numbers

variable {base n : Nat}

/-- Every character of a number is a digit of its base. -/
theorem exists_digitChar_of_mem_toDigits (hbase : 1 < base) {c : Char}
    (h : c ∈ Nat.toDigits base n) : ∃ d < base, c = d.digitChar := by
  induction n using Nat.base_induction base hbase with
  | single m hm =>
    rw [Nat.toDigits_of_lt_base hm] at h
    exact ⟨m, hm, List.mem_singleton.mp h⟩
  | digit m d hd hm ih =>
    rw [← Nat.toDigits_append_toDigits hbase hm hd, Nat.toDigits_of_lt_base hd] at h
    rcases List.mem_append.mp h with h | h
    · exact ih h
    · exact ⟨d, hd, List.mem_singleton.mp h⟩

/-- A character that is no digit is not in a number. -/
theorem not_mem_toDigits (hbase : 1 < base) {c : Char} (hne : ∀ d < base, c ≠ d.digitChar)
    (n : Nat) : c ∉ Nat.toDigits base n := by
  intro hmem
  obtain ⟨d, hd, hdigit⟩ := exists_digitChar_of_mem_toDigits hbase hmem
  exact hne d hd hdigit

/-- The digits up to hexadecimal are all different. -/
theorem digitChar_injOn : ∀ d < 16, ∀ d' < 16, d.digitChar = d'.digitChar → d = d' := by decide

/-- One digit is not more than one. -/
theorem toDigits_ne_singleton (hbase : 1 < base) (hge : base ≤ n) (c : Char) :
    Nat.toDigits base n ≠ [c] := by
  intro heq
  rw [Nat.toDigits_of_base_le hbase hge] at heq
  exact Nat.toDigits_ne_nil (List.append_inj' (heq.trans (List.nil_append _).symm) rfl).1

/-- A number is known from its digits. -/
theorem toDigits_injective (hbase : 1 < base) (hle : base ≤ 16) :
    Function.Injective (Nat.toDigits base) := by
  intro n
  -- The last digit is the remainder, and the digits in front of it are those of the quotient.
  induction n using Nat.strongRecOn with
  | ind n ih =>
    intro n' heq
    rcases Nat.lt_or_ge n base with hlt | hge <;> rcases Nat.lt_or_ge n' base with hlt' | hge'
    · rw [Nat.toDigits_of_lt_base hlt, Nat.toDigits_of_lt_base hlt', List.singleton_inj] at heq
      exact digitChar_injOn n (by omega) n' (by omega) heq
    · rw [Nat.toDigits_of_lt_base hlt] at heq
      exact absurd heq.symm (toDigits_ne_singleton hbase hge' _)
    · rw [Nat.toDigits_of_lt_base hlt'] at heq
      exact absurd heq (toDigits_ne_singleton hbase hge _)
    · rw [Nat.toDigits_of_base_le hbase hge, Nat.toDigits_of_base_le hbase hge'] at heq
      obtain ⟨hfront, hlast⟩ := List.append_inj' heq rfl
      have hpos : 0 < base := Nat.lt_trans Nat.one_pos hbase
      have hdiv := ih (n / base) (Nat.div_lt_self (by omega) hbase) hfront
      have hmod := digitChar_injOn _ (Nat.lt_of_lt_of_le (Nat.mod_lt n hpos) hle)
        _ (Nat.lt_of_lt_of_le (Nat.mod_lt n' hpos) hle) (List.singleton_inj.mp hlast)
      rw [← Nat.div_add_mod n base, hdiv, hmod, Nat.div_add_mod]

/-- A number ends in front of the first character that is no digit. -/
theorem eq_of_toDigits_append_cons (hbase : 1 < base) (hle : base ≤ 16) {stop : Char}
    (hstop : ∀ d < base, stop ≠ d.digitChar) {n n' : Nat} {rest rest' : Text}
    (heq : Nat.toDigits base n ++ stop :: rest = Nat.toDigits base n' ++ stop :: rest') :
    n = n' ∧ rest = rest' := by
  obtain ⟨hdigits, hrest⟩ := eq_of_append_cons (not_mem_toDigits hbase hstop n)
    (not_mem_toDigits hbase hstop n') heq
  exact ⟨toDigits_injective hbase hle hdigits, hrest⟩

/-- A number has no control character. -/
theorem controlFree_toDigits (hbase : 1 < base) (hle : base ≤ 16) (n : Nat) :
    ControlFree (Nat.toDigits base n) := by
  intro c hmem
  obtain ⟨d, hd, rfl⟩ := exists_digitChar_of_mem_toDigits hbase hmem
  have hall : ∀ d < 16, ¬IsControl d.digitChar := by decide
  exact hall d (by omega)

end Numbers

/-! ## Characters -/

namespace Quoted

/-- The character that a letter behind a backslash stands for. -/
def meant : Char → Char
  | '0' => '\x00'
  | 't' => '\t'
  | 'r' => '\r'
  | 'n' => '\n'
  | c => c

/-- The three forms of a character between two marks. -/
inductive EscapedAs (mark : Char) : Char → Text → Prop
  | itself {c : Char} (hslash : c ≠ '\\') (hmark : c ≠ mark) (hcode : needsCode c = false) :
    EscapedAs mark c [c]
  | short (letter : Char) (hletter : letter ∈ ['0', 't', 'r', 'n', '\\', mark]) :
    EscapedAs mark (meant letter) ['\\', letter]
  | code (c : Char) : EscapedAs mark c (code c)

variable {mark : Char} (hmark : mark ∈ [textMark, charMark])
include hmark

/-- The mark itself is its own letter behind a backslash. -/
theorem meant_mark : meant mark = mark := by
  simp only [List.mem_cons, List.not_mem_nil, or_false] at hmark
  rcases hmark with rfl | rfl <;> rfl

/-- The spelling of a character has one of the three forms. -/
theorem escapedAs_escape (c : Char) : EscapedAs mark c (escape mark c) := by
  rw [escape]
  split
  next hc => subst hc; exact .short '0' (by simp)
  split
  next hc => subst hc; exact .short 't' (by simp)
  split
  next hc => subst hc; exact .short 'r' (by simp)
  split
  next hc => subst hc; exact .short 'n' (by simp)
  split
  next hc => subst hc; exact .short '\\' (by simp)
  split
  next hc =>
    rw [hc]
    have hshort : EscapedAs mark (meant mark) ['\\', mark] := .short mark (by simp)
    rwa [meant_mark hmark] at hshort
  split
  next => exact .code c
  next hslash hmark hcode => exact .itself hslash hmark (by simpa using hcode)

/-- Where a character ends, and what it is, shows from its spelling. -/
theorem EscapedAs.unique {c c' : Char} {text text' rest rest' : Text} (h : EscapedAs mark c text)
    (h' : EscapedAs mark c' text') (heq : text ++ rest = text' ++ rest') :
    c = c' ∧ rest = rest' := by
  -- A letter behind a backslash is not the one that a code starts with.
  have hletter {letter : Char} (hmem : letter ∈ ['0', 't', 'r', 'n', '\\', mark]) :
      letter ≠ 'u' := by
    simp only [List.mem_cons, List.not_mem_nil, or_false] at hmark hmem
    rcases hmark with rfl | rfl <;> rcases hmem with rfl | rfl | rfl | rfl | rfl | rfl <;> decide
  cases h with
  | itself hslash =>
    cases h' with
    | itself => exact List.cons.inj heq
    | short => exact absurd (List.cons.inj heq).1 hslash
    | code => exact absurd (List.cons.inj heq).1 hslash
  | short letter hmem =>
    cases h' with
    | itself hslash' => exact absurd (List.cons.inj heq).1.symm hslash'
    | short letter' =>
      obtain ⟨rfl, hrest⟩ := List.cons.inj (List.cons.inj heq).2
      exact ⟨rfl, hrest⟩
    | code => exact absurd (List.cons.inj (List.cons.inj heq).2).1 (hletter hmem)
  | code =>
    cases h' with
    | itself hslash' => exact absurd (List.cons.inj heq).1.symm hslash'
    | short letter' hmem' =>
      exact absurd (List.cons.inj (List.cons.inj heq).2).1.symm (hletter hmem')
    | code =>
      simp only [Quoted.code, List.append_assoc, List.cons_append, List.nil_append,
        List.cons.injEq, true_and] at heq
      obtain ⟨hcode, hrest⟩ := eq_of_toDigits_append_cons (by decide) (by decide) (by decide) heq
      exact ⟨Char.toNat_inj.mp hcode, hrest⟩

/-- A character and what follows it are known from the whole. -/
theorem selfDelimiting_escape : SelfDelimiting (escape mark) := fun heq =>
  (escapedAs_escape hmark _).unique hmark (escapedAs_escape hmark _) heq

/-- The spelling of a character does not start like the mark at the end. -/
theorem escape_append_ne (c : Char) (text rest : Text) : escape mark c ++ text ≠ mark :: rest := by
  have hslash : '\\' ≠ mark := by
    simp only [List.mem_cons, List.not_mem_nil, or_false] at hmark
    rcases hmark with rfl | rfl <;> decide
  intro heq
  have hescaped := escapedAs_escape hmark c
  generalize escape mark c = spelled at hescaped heq
  cases hescaped with
  | itself _ hne => exact hne (List.cons.inj heq).1
  | short => exact hslash (List.cons.inj heq).1
  | code => exact hslash (List.cons.inj heq).1

/-- A text ends at the first mark that is not part of the spelling of a character. -/
theorem selfDelimiting_escapeAll : SelfDelimiting fun text => escapeAll mark text ++ [mark] := by
  intro text text' rest rest' heq
  simp only [List.append_assoc, List.singleton_append] at heq
  induction text generalizing text' with
  | nil =>
    cases text' with
    | nil => exact ⟨rfl, (List.cons.inj heq).2⟩
    | cons c' text' =>
      rw [escapeAll_cons, List.append_assoc] at heq
      exact absurd heq.symm (escape_append_ne hmark c' _ _)
  | cons c text ih =>
    rw [escapeAll_cons, List.append_assoc] at heq
    cases text' with
    | nil => exact absurd heq (escape_append_ne hmark c _ _)
    | cons c' text' =>
      rw [escapeAll_cons, List.append_assoc] at heq
      obtain ⟨rfl, hspelled⟩ := selfDelimiting_escape hmark heq
      obtain ⟨rfl, hrest⟩ := ih hspelled
      exact ⟨rfl, hrest⟩

/-- No spelling of a character has a control character. -/
theorem controlFree_escape (c : Char) : ControlFree (escape mark c) := by
  have hescaped := escapedAs_escape hmark c
  generalize escape mark c = spelled at hescaped
  cases hescaped with
  | itself hslash hne hcode =>
    -- A control character would be written by its code.
    intro d hd hcontrol
    rw [List.mem_singleton.mp hd] at hcontrol
    rw [needsCode, isUnprintable_of_control hcontrol, Bool.or_true] at hcode
    cases hcode
  | short letter hmem =>
    refine .cons (by decide) ?_
    simp only [List.mem_cons, List.not_mem_nil, or_false] at hmark hmem
    rcases hmark with rfl | rfl <;> rcases hmem with rfl | rfl | rfl | rfl | rfl | rfl <;> decide
  | code =>
    have hfront : ControlFree ['\\', 'u', '\x7b'] := by decide
    have hback : ControlFree ['\x7d'] := by decide
    exact (hfront.append (controlFree_toDigits (by decide) (by decide) c.toNat)).append hback

/-- No spelling of a text has a control character. -/
theorem controlFree_escapeAll (text : Text) : ControlFree (escapeAll mark text) := by
  induction text with
  | nil => exact List.forall_mem_nil _
  | cons c text ih => exact (controlFree_escape hmark c).append ih

end Quoted

/-! ## Quotations -/

/-- A quoted text and what follows it are known from the whole. -/
theorem selfDelimiting_quoteText : SelfDelimiting quoteText := by
  intro text text' rest rest' heq
  exact Quoted.selfDelimiting_escapeAll (by simp) (List.cons.inj heq).2

/-- A quoted character and what follows it are known from the whole. -/
theorem selfDelimiting_quoteChar : SelfDelimiting quoteChar := by
  intro c c' rest rest' heq
  simp only [quoteChar, List.cons_append, List.append_assoc, List.cons.injEq, true_and] at heq
  obtain ⟨rfl, hrest⟩ := Quoted.selfDelimiting_escape (by simp) heq
  exact ⟨rfl, (List.cons.inj hrest).2⟩

/-- No quoted text has a control character. -/
theorem controlFree_quoteText (text : Text) : ControlFree (quoteText text) :=
  .cons (by decide) ((Quoted.controlFree_escapeAll (by simp) text).append (by decide))

/-- No quoted character has a control character. -/
theorem controlFree_quoteChar (c : Char) : ControlFree (quoteChar c) :=
  .cons (by decide) ((Quoted.controlFree_escape (by simp) c).append (by decide))

end LinkDump
