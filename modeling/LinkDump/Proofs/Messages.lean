import LinkDump.Error
import LinkDump.Proofs.Quotations

/-! # Messages can be read back
The message of a decoding error says all of it: where it was met, what went wrong, and the
character, the width and the line that it is about. The words at the front show the kind of the
cause, and the numbers and quotations behind them show where they end. A message is one line,
whatever the line that it quotes holds. Only the reason that a failing source gives is passed on as
it stands. -/

namespace LinkDump

namespace LineError

/-- The kinds of causes that do not lie in the source of the bytes. -/
inductive Kind
  | invalidMetaChar
  | metaMissingName
  | metaMissingValue
  | tooManyBars
  | missingBar
  | barNotAtWidth
  | slotOccupied
  deriving DecidableEq

/-- The words at the front of a message, which its kind fixes. -/
def Kind.opening : Kind → Text
  | invalidMetaChar => "invalid character ".toList
  | metaMissingName => "meta line missing field name: ".toList
  | metaMissingValue => "meta line missing value: ".toList
  | tooManyBars => "link line has too many bar separators: ".toList
  | missingBar => "link line missing bar separator: ".toList
  | barNotAtWidth => "shortcode not ".toList
  | slotOccupied => slotOccupiedMessage

/-- Every kind of causes. -/
def Kind.all : List Kind :=
  [invalidMetaChar, metaMissingName, metaMissingValue, tooManyBars, missingBar, barNotAtWidth,
    slotOccupied]

/-- There are no other kinds. -/
theorem Kind.mem_all (kind : Kind) : kind ∈ all := by
  cases kind <;> decide

/-- No opening is the start of another one. -/
theorem Kind.eq_of_opening_isPrefix {kind kind' : Kind} (h : kind.opening <+: kind'.opening) :
    kind = kind' := by
  have hall : ∀ kind ∈ all, ∀ kind' ∈ all, kind.opening <+: kind'.opening → kind = kind' := by
    decide +kernel
  exact hall kind kind.mem_all kind' kind'.mem_all h

/-- No opening has a control character. -/
theorem Kind.controlFree_opening (kind : Kind) : ControlFree kind.opening := by
  have hall : ∀ kind ∈ all, ControlFree kind.opening := by decide +kernel
  exact hall kind kind.mem_all

/-- The kind of a cause. -/
def kind? : LineError → Option Kind
  | invalidMetaChar _ _ => some .invalidMetaChar
  | metaMissingName _ => some .metaMissingName
  | metaMissingValue _ => some .metaMissingValue
  | tooManyBars _ => some .tooManyBars
  | missingBar _ => some .missingBar
  | barNotAtWidth _ _ => some .barNotAtWidth
  | input _ => none
  | slotOccupied => some .slotOccupied

/-- What a message says behind its opening. -/
def details : LineError → Text
  | invalidMetaChar char line => quoteChar char ++ (" in meta field: ".toList ++ quoteText line)
  | metaMissingName line | metaMissingValue line | tooManyBars line | missingBar line =>
    quoteText line
  | barNotAtWidth width line =>
    Nat.toDigits 10 width ++ ' ' :: ("characters: ".toList ++ quoteText line)
  | input _ | slotOccupied => []

variable {cause cause' : LineError} {kind kind' : Kind}

/-- Every cause that does not lie in the source of the bytes has a kind. -/
theorem exists_kind (h : cause.isInput = false) : ∃ kind, cause.kind? = some kind := by
  cases cause with
  | input => cases h
  | _ => exact ⟨_, rfl⟩

/-- A message is the opening of its kind, and the details of its cause. -/
theorem message_eq (h : cause.kind? = some kind) :
    cause.message = kind.opening ++ cause.details := by
  cases cause with
  | input => cases h
  | slotOccupied => cases h; exact (List.append_nil _).symm
  | invalidMetaChar char line =>
    cases h
    exact (List.append_assoc _ _ _).trans (List.append_assoc _ _ _)
  | barNotAtWidth width line =>
    cases h
    have hblank : " characters: ".toList = ' ' :: "characters: ".toList := by decide +kernel
    rw [details, ← List.cons_append, ← hblank]
    exact (List.append_assoc _ _ _).trans (List.append_assoc _ _ _)
  | _ => cases h; rfl

/-- Messages that are the same have the same opening, and so they are of one kind. -/
theorem kind_details_of_message_eq (h : cause.kind? = some kind) (h' : cause'.kind? = some kind')
    (heq : cause.message = cause'.message) : kind = kind' ∧ cause.details = cause'.details := by
  rw [message_eq h, message_eq h'] at heq
  have hfront : kind.opening <+: kind'.opening ++ cause'.details := ⟨_, heq⟩
  have hkind : kind = kind' := by
    rcases List.prefix_or_prefix_of_prefix hfront (List.prefix_append _ _) with hle | hle
    · exact Kind.eq_of_opening_isPrefix hle
    · exact (Kind.eq_of_opening_isPrefix hle).symm
  subst hkind
  exact ⟨rfl, List.append_cancel_left heq⟩

/-- A cause is known from its kind and what its message says behind the opening. -/
theorem eq_of_details_eq (h : cause.kind? = some kind) (h' : cause'.kind? = some kind)
    (heq : cause.details = cause'.details) : cause = cause' := by
  -- Two causes of different kinds are not both of this one.
  cases cause <;> cases h <;> cases cause' <;> cases h'
  case slotOccupied => rfl
  case invalidMetaChar =>
    obtain ⟨rfl, hrest⟩ := selfDelimiting_quoteChar heq
    rw [selfDelimiting_quoteText.injective (List.append_cancel_left hrest)]
  case barNotAtWidth =>
    obtain ⟨rfl, hrest⟩ := eq_of_toDigits_append_cons (by decide) (by decide) (by decide) heq
    rw [selfDelimiting_quoteText.injective (List.append_cancel_left hrest)]
  all_goals rw [selfDelimiting_quoteText.injective heq]

/-- A cause is known from its message, unless it lies in the source of the bytes. -/
theorem eq_of_message_eq (h : cause.isInput = false) (h' : cause'.isInput = false)
    (heq : cause.message = cause'.message) : cause = cause' := by
  obtain ⟨kind, hkind⟩ := exists_kind h
  obtain ⟨kind', hkind'⟩ := exists_kind h'
  obtain ⟨rfl, hdetails⟩ := kind_details_of_message_eq hkind hkind' heq
  exact eq_of_details_eq hkind hkind' hdetails

/-- Whatever is quoted, the details have no control character. -/
theorem controlFree_details (cause : LineError) : ControlFree cause.details := by
  cases cause with
  | invalidMetaChar char line =>
    have hmiddle : ControlFree " in meta field: ".toList := by decide +kernel
    exact (controlFree_quoteChar char).append (hmiddle.append (controlFree_quoteText line))
  | barNotAtWidth width line =>
    have hmiddle : ControlFree "characters: ".toList := by decide +kernel
    exact (controlFree_toDigits (by decide) (by decide) width).append
      (.cons (by decide) (hmiddle.append (controlFree_quoteText line)))
  | metaMissingName line | metaMissingValue line | tooManyBars line | missingBar line =>
    exact controlFree_quoteText line
  | input | slotOccupied => exact List.forall_mem_nil _

/-- The message of a cause has no control character, unless it lies in the source of the bytes. -/
theorem controlFree_message (h : cause.isInput = false) : ControlFree cause.message := by
  obtain ⟨kind, hkind⟩ := exists_kind h
  rw [message_eq hkind]
  exact kind.controlFree_opening.append (controlFree_details cause)

end LineError

namespace DecodeError

variable {e e' : DecodeError}

/-- A message tells the line in front of the cause. -/
theorem message_eq (e : DecodeError) :
    e.message =
      "beacon: line ".toList ++ (Nat.toDigits 10 e.line ++ ':' :: ' ' :: e.cause.message) := by
  have hcolon : ": ".toList = [':', ' '] := by decide +kernel
  calc
    e.message = "beacon: line ".toList ++ Nat.toDigits 10 e.line ++ ": ".toList ++
        e.cause.message := rfl
    _ = "beacon: line ".toList ++ (Nat.toDigits 10 e.line ++ ':' :: ' ' :: e.cause.message) := by
      rw [hcolon, List.append_assoc, List.append_assoc]; rfl

/-- An error that does not lie in the source is known from its message. -/
theorem eq_of_message_eq (h : e.cause.isInput = false) (h' : e'.cause.isInput = false)
    (heq : e.message = e'.message) : e = e' := by
  rw [message_eq, message_eq] at heq
  obtain ⟨hline, hrest⟩ := eq_of_toDigits_append_cons (by decide) (by decide) (by decide)
    (List.append_cancel_left heq)
  have hcause := LineError.eq_of_message_eq h h' (List.cons.inj hrest).2
  cases e
  cases e'
  exact (mk.injEq ..).mpr ⟨hline, hcause⟩

/-- A whole message has no control character, unless its cause lies in the source of the bytes. -/
theorem controlFree_message (h : e.cause.isInput = false) : ControlFree e.message := by
  have hfront : ControlFree "beacon: line ".toList := by decide +kernel
  rw [message_eq]
  exact hfront.append ((controlFree_toDigits (by decide) (by decide) e.line).append
    (.cons (by decide) (.cons (by decide) (LineError.controlFree_message h))))

/-- Two decoding errors with the same message are the same error, unless the source failed: they
were met after the same number of lines, have the same cause, and are about the same character, the
same width and the same line. And such a message is a single line without a control character. -/
theorem message_faithful :
    (∀ {e e' : DecodeError}, e.cause.isInput = false → e'.cause.isInput = false →
      e.message = e'.message → e = e') ∧
    ∀ {e : DecodeError}, e.cause.isInput = false →
      '\n' ∉ e.message ∧ '\r' ∉ e.message ∧ ∀ c ∈ e.message, ¬IsControl c :=
  ⟨eq_of_message_eq, fun h =>
    ⟨(controlFree_message h).not_mem.1, (controlFree_message h).not_mem.2, controlFree_message h⟩⟩

/-- A line that holds a line break, and the line that holds the spelling of one instead, have
different messages. The second line is known from its message also when it was decoded from
bytes. -/
theorem message_faithful_of_lookalikes :
    let broken : DecodeError := ⟨2, .invalidMetaChar '\x27' ['#', '\x27', '\n']⟩
    let spelled : DecodeError := ⟨2, .invalidMetaChar '\x27' ['#', '\x27', '\\', 'n']⟩
    let decoded : DecodeError :=
      ⟨2, .invalidMetaChar '\x27' (Utf8.decode [0x23, 0x27, 0x5C, 0x6E])⟩
    broken.message =
        "beacon: line 2: invalid character '\\'' in meta field: \"#'\\n\"".toList ∧
      broken.message ≠ spelled.message ∧ '\n' ∉ broken.message ∧
      decoded.message = spelled.message ∧ decoded = spelled := by
  intro broken spelled decoded
  have hdecoded : decoded.message = spelled.message := by decide +kernel
  have hdiffer : broken ≠ spelled := by decide +kernel
  exact ⟨by decide +kernel, fun heq => hdiffer (message_faithful.1 rfl rfl heq),
    (message_faithful.2 rfl).1, hdecoded, message_faithful.1 rfl rfl hdecoded⟩

end DecodeError

end LinkDump
