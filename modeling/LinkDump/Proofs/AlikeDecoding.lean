import LinkDump.Proofs.Alike
import LinkDump.Proofs.Marks

/-! # Dumps that decode alike
What holds of every loop over lines holds of decoding a whole dump: from cursors that read alike it
gives the same, or what the second one gives is known from the first, `Decoded.upTo`. The header is
scanned first, from the byte that comes next; a dump whose first line fails has no header and no
links at all, whichever of the two calls the failure meets. -/

namespace LinkDump

/-! ## Links -/

/-- Which of the links at the end of some lines are sure to be complete: a record of fixed width may
go on for as long as there are lines. -/
def Dialect.settled : Dialect → List Link → List Link
  | .fixedWidth _, links => links.dropLast
  | _, links => links

@[simp] theorem Dialect.settled_nil (dialect : Dialect) : dialect.settled [] = [] := by
  cases dialect <;> rfl

/-- The first of several links is complete. -/
theorem Dialect.settled_cons {dialect : Dialect} {links : List Link} (link : Link)
    (h : dialect.width? = none ∨ links ≠ []) :
    dialect.settled (link :: links) = link :: dialect.settled links := by
  cases dialect with
  | rfc => rfl
  | variableWidth => rfl
  | fixedWidth width =>
    have hne : links ≠ [] := h.resolve_left (Option.some_ne_none width)
    exact List.dropLast_cons_of_ne_nil hne

/-- What decoding would have given if its source, in place of ending, had failed with `stop`. -/
def Decoded.upTo (stop : Option DecodeError) (dialect : Dialect) (decoded : Decoded) : Decoded :=
  match decoded.failure, stop with
  | none, some e => ⟨decoded.fields, dialect.settled decoded.links, some e, e.line⟩
  | _, _ => decoded

/-- With no failure in the place of the end, decoding gives what it gave. -/
theorem Decoded.upTo_none (dialect : Dialect) (decoded : Decoded) :
    decoded.upTo none dialect = decoded := by
  obtain ⟨fields, links, failure, line⟩ := decoded
  cases failure <;> rfl

/-- A failure that comes first hides the one in the place of the end. -/
theorem Decoded.upTo_of_failure {stop : Option DecodeError} {dialect : Dialect} {decoded : Decoded}
    {e : DecodeError} (h : decoded.failure = some e) : decoded.upTo stop dialect = decoded := by
  obtain ⟨fields, links, failure, line⟩ := decoded
  cases h
  rfl

/-- A failure in the place of the end keeps the links that are settled. -/
theorem Decoded.upTo_ended (e : DecodeError) (dialect : Dialect) (fields : List MetaField)
    (links : List Link) (line : Nat) :
    Decoded.upTo (some e) dialect ⟨fields, links, none, line⟩ =
      ⟨fields, dialect.settled links, some e, e.line⟩ := rfl

/-- A link in front of others that are complete, or where the last one need not be dropped. -/
theorem Decoded.upTo_cons {stop : Option DecodeError} {dialect : Dialect} {decoded : Decoded}
    (link : Link) (h : decoded.failure = none →
      stop = none ∨ dialect.width? = none ∨ decoded.links ≠ []) :
    Decoded.upTo stop dialect { decoded with links := link :: decoded.links } =
      { decoded.upTo stop dialect with links := link :: (decoded.upTo stop dialect).links } := by
  obtain ⟨fields, links, failure, line⟩ := decoded
  rcases failure with _ | failure
  · rcases stop with _ | e
    · rfl
    · have hlast := (h rfl).resolve_left (Option.some_ne_none e)
      simp only [upTo, Dialect.settled_cons link hlast]
  · rfl

namespace Reader

variable {stop : Option DecodeError} {cursor cursor' : Cursor} {dialect : Dialect}
  {fields : List MetaField}

/-- All that is read from a cursor, once the header is over, with the links first. -/
theorem finish_of_link {link : Link} (h : cursor.readLink dialect = .ok (some link) cursor') :
    finish ⟨cursor, dialect, fields, .links⟩ =
      { finish ⟨cursor', dialect, fields, .links⟩ with
        links := link :: (finish ⟨cursor', dialect, fields, .links⟩).links } := by
  simp only [finish, readLinks_of_link h]

/-- Where no link is left, decoding has come to its end. -/
theorem finish_of_end (h : cursor.readLink dialect = .ok none cursor') :
    finish ⟨cursor, dialect, fields, .links⟩ = ⟨fields, [], none, cursor'.line⟩ := by
  simp only [finish, readLinks_of_end h, line]

/-- With nothing left to read there is no link. -/
theorem finish_of_nothing (line : Nat) :
    finish ⟨⟨[], .empty, line⟩, dialect, fields, .links⟩ = ⟨fields, [], none, line⟩ :=
  finish_of_end ((Cursor.StandsAt.unread Source.allChunks_nil rfl).readLink_nil dialect)

/-- Where reading a link fails, decoding fails with that error. -/
theorem finish_of_error {cause : LineError} (h : cursor.readLink dialect = .error cause cursor') :
    finish ⟨cursor, dialect, fields, .links⟩ =
      ⟨fields, [], some ⟨cursor'.line, cause⟩, cursor'.line⟩ := by
  simp only [finish, readLinks_of_error h, line]

/-- A line that waits gives a link, unless it is refused. -/
theorem links_finish_ne_nil_of_held (hheld : cursor.slot.isEmpty = false)
    (hfailure : (finish ⟨cursor, dialect, fields, .links⟩).failure = none) :
    (finish ⟨cursor, dialect, fields, .links⟩).links ≠ [] := by
  rcases hread : cursor.readLink dialect with ⟨_ | link, cursor'⟩ | ⟨cause, cursor'⟩
  · exact absurd hread (Cursor.readLink_ne_none_of_held hheld dialect)
  · rw [finish_of_link hread]
    exact List.cons_ne_nil _ _
  · rw [finish_of_error hread] at hfailure
    cases hfailure

/-- The links read from cursors that read alike. -/
theorem finish_alike (h : cursor.Alike stop cursor') :
    finish ⟨cursor', dialect, fields, .links⟩ =
      (finish ⟨cursor, dialect, fields, .links⟩).upTo stop dialect := by
  induction hp : cursor.pending using Nat.strongRecOn generalizing cursor cursor' with
  | _ n ih =>
    have hlink := h.readLink dialect
    generalize hread : cursor.readLink dialect = answer at hlink
    generalize hread' : cursor'.readLink dialect = answer' at hlink
    cases hlink with
    | @link link cursor₁ cursor₁' hnext hline hheld =>
      have hlt : cursor₁.pending < n := hp ▸ Cursor.pending_lt_of_readLink hread
      rw [finish_of_link hread, finish_of_link hread', ih _ hlt hnext rfl]
      refine (Decoded.upTo_cons link ?_).symm
      intro hfailure
      exact hheld.imp_right (Or.imp_right fun hheld => links_finish_ne_nil_of_held hheld hfailure)
    | nothing hstop hline =>
      rw [finish_of_end hread, finish_of_end hread', hline, hstop]
      rfl
    | failed hline =>
      rw [finish_of_error hread, finish_of_error hread', hline]
      rfl
    | stopped hstop hline =>
      rw [finish_of_end hread, finish_of_error hread', hline, hstop, Decoded.upTo_ended,
        Dialect.settled_nil]
    | @stoppedWithin link e _ hstop hwidth hline =>
      -- The record at hand is the only link left to the first one, and is lost to the second.
      rw [finish_of_link hread, finish_of_nothing, finish_of_error hread', hline, hstop]
      cases dialect with
      | rfc => exact absurd rfl hwidth
      | variableWidth => exact absurd rfl hwidth
      | fixedWidth width => rfl

end Reader

/-! ## The header -/

namespace Cursor

variable {stop : Option DecodeError} {cursor cursor' : Cursor}

/-- The outcomes of scanning the header from cursors that read alike. -/
inductive HeaderAlike (stop : Option DecodeError) :
    Scanner × Answer Unit → Scanner × Answer Unit → Prop
  /-- Both find the same fields and go on. -/
  | scanned {scanner : Scanner} {cursor cursor' : Cursor} (h : Alike stop cursor cursor') :
      HeaderAlike stop (scanner, .ok () cursor) (scanner, .ok () cursor')
  /-- Both fail. -/
  | failed {scanner : Scanner} {e : LineError} {cursor cursor' : Cursor}
      (hline : cursor'.line = cursor.line) :
      HeaderAlike stop (scanner, .error e cursor) (scanner, .error e cursor')
  /-- The first one has come to the end of the lines, and the second one stops. -/
  | stopped {scanner : Scanner} {e : DecodeError} {cursor' : Cursor} (hstop : stop = some e)
      (hline : cursor'.line = e.line) :
      HeaderAlike stop (scanner, .ok () ⟨[], .empty, e.line⟩) (scanner, .error e.cause cursor')

/-- Header lines are scanned alike from cursors that read alike. -/
theorem Alike.headerAlike_scanLines (h : Alike stop cursor cursor') (scanner : Scanner) :
    HeaderAlike stop (cursor.scanLines scanner) (cursor'.scanLines scanner) := by
  obtain ⟨hscanner, hloop⟩ := h.scanLines scanner
  generalize cursor.scanLines scanner = outcome at hscanner hloop
  generalize cursor'.scanLines scanner = outcome' at hscanner hloop
  obtain ⟨scanner₁, answer⟩ := outcome
  obtain ⟨scanner₁', answer'⟩ := outcome'
  obtain rfl : scanner₁' = scanner₁ := hscanner
  simp only at hloop
  cases hloop with
  | done h hline hheld => exact .scanned h
  | failed hline => exact .failed hline
  | stopped hstop hline => exact .stopped hstop hline

/-- With nothing left to read there is no header. -/
theorem Reads.scanUnmarked_nil {count : Nat} (h : cursor.Reads count []) :
    cursor.scanUnmarked {} = ({}, .ok () ⟨[], .empty, count⟩) := by
  rw [scanUnmarked, h.peekByte_nil]
  rfl

/-- A line that fails is no header: the scan fails on it, or leaves it to the links. -/
theorem Reads.scanUnmarked_error {count : Nat} {reason : Text} {readings : List Reading}
    (h : cursor.Reads count (.error reason :: readings)) :
    cursor.scanUnmarked {} = ({}, .ok () cursor) ∨
      ∃ source, cursor.scanUnmarked {} = ({}, .error (.input reason) ⟨source, .empty, count⟩) := by
  rcases h.peekByte_error with ⟨first, hpeek⟩ | ⟨source, hpeek⟩
  · rw [scanUnmarked, hpeek]
    by_cases hfirst : first = some 0x23
    · obtain ⟨source, -, hread⟩ := h.nextRawLine_error
      refine .inr ⟨source, ?_⟩
      simp only [if_pos hfirst, scanLines_eq, hread]
    · refine .inl ?_
      simp only [if_neg hfirst]
  · refine .inr ⟨source, ?_⟩
    rw [scanUnmarked, hpeek]

/-- Behind the mark the header is the same, unless the first line fails. -/
theorem headerAlike_scanUnmarked {count : Nat} {readings readings' : List Reading}
    (hreads : cursor.Reads count readings) (hreads' : cursor'.Reads count readings')
    (hagree : AgreeUpTo stop count readings readings')
    (hfirst : ∀ reason rest, readings ≠ .error reason :: rest) :
    HeaderAlike stop (cursor.scanUnmarked {}) (cursor'.scanUnmarked {}) := by
  cases hagree with
  | ended hstop =>
    rw [scanUnmarked, scanUnmarked, hreads.peekByte_nil, hreads'.peekByte_nil]
    exact .scanned ⟨count, [], [], .unread rfl, .unread rfl, .ended hstop⟩
  | stopped hstop =>
    rw [hreads.scanUnmarked_nil]
    rcases hreads'.scanUnmarked_error with hscan | ⟨source, hscan⟩
    · rw [hscan]
      exact .scanned ⟨count, [], _, .unread rfl, hreads', .stopped hstop⟩
    · rw [hscan]
      exact .stopped hstop rfl
  | lull hstop hrest =>
    obtain ⟨source, hsource, hpeek⟩ := hreads.peekByte_lull
    obtain ⟨source', hsource', hpeek'⟩ := hreads'.peekByte_lull
    rw [scanUnmarked, scanUnmarked, hpeek, hpeek']
    exact .scanned ⟨count, _, _, .unread hsource, .unread hsource', hrest⟩
  | failed => exact absurd rfl (hfirst _ _)
  | @line _ line _ _ hne hrest =>
    have halike : Alike stop cursor cursor' := ⟨count, _, _, hreads, hreads', .line hne hrest⟩
    cases line with
    | nil => exact absurd rfl hne
    | cons b line =>
      -- Both see a `#`, or neither does.
      obtain ⟨first, hpeek, hiff⟩ := hreads.peekByte_line (a := '#') (by decide)
      obtain ⟨first', hpeek', hiff'⟩ := hreads'.peekByte_line (a := '#') (by decide)
      change first = some 0x23 ↔ _ at hiff
      change first' = some 0x23 ↔ _ at hiff'
      rw [scanUnmarked, scanUnmarked, hpeek, hpeek']
      by_cases hb : b = UInt8.ofNat '#'.toNat
      · simp only [if_pos (hiff.mpr hb), if_pos (hiff'.mpr hb)]
        exact halike.headerAlike_scanLines {}
      · simp only [if_neg (mt hiff.mp hb), if_neg (mt hiff'.mp hb)]
        exact .scanned halike

/-- With the mark out of the way, what is still to come decides the header, unless the first line
fails. -/
theorem headerAlike_of_marked {source source' : Source} {readings readings' : List Reading}
    (hmarked : Marked readings (consumeMark { source }))
    (hmarked' : Marked readings' (consumeMark { source := source' }))
    (hagree : AgreeUpTo stop 0 readings readings')
    (hfirst : ∀ reason rest, readings ≠ .error reason :: rest) :
    HeaderAlike stop (scanHeader { source }) (scanHeader { source := source' }) := by
  rw [scanHeader_eq_scanUnmarked, scanHeader_eq_scanUnmarked]
  generalize consumeMark { source } = answer at hmarked
  generalize consumeMark { source := source' } = answer' at hmarked'
  cases hmarked with
  | failed h => exact absurd h (hfirst _ _)
  | passed hreads =>
    cases hmarked' with
    | passed hreads' => exact headerAlike_scanUnmarked hreads hreads' hagree hfirst
    | failed h =>
      -- The search for the mark can only have met the failure at which the second one stops.
      subst h
      cases hagree with
      | failed => exact absurd rfl (hfirst _ _)
      | stopped hstop =>
        simp only [hreads.scanUnmarked_nil]
        exact .stopped hstop rfl

/-- A line that fails is no link in any dialect. -/
theorem Reads.readLink_error {count : Nat} {reason : Text}
    {readings : List Reading} (h : cursor.Reads count (.error reason :: readings))
    (dialect : Dialect) :
    ∃ source, cursor.readLink dialect = .error (.input reason) ⟨source, .empty, count⟩ := by
  obtain ⟨source, -, hread⟩ := h.nextRawLine_error
  refine ⟨source, ?_⟩
  cases dialect with
  | rfc => simp only [readLink, readBars, nextLine, hread, parseLine]
  | variableWidth => simp only [readLink, readFirstBar, hread, parseLine]
  | fixedWidth width => simp only [readLink, readFixed, hread]

end Cursor

/-! ## Whole dumps -/

variable {stop : Option DecodeError} {dialect : Dialect} {source source' : Source}

/-- A dump whose header is scanned alike is decoded alike. -/
theorem decode_of_headerAlike
    (h : Cursor.HeaderAlike stop (Cursor.scanHeader { source })
      (Cursor.scanHeader { source := source' })) :
    decode dialect source' = (decode dialect source).upTo stop dialect := by
  generalize hscan : Cursor.scanHeader { source } = outcome at h
  generalize hscan' : Cursor.scanHeader { source := source' } = outcome' at h
  cases h with
  | scanned h =>
    rw [decode_of_scanHeader_eq_ok hscan, decode_of_scanHeader_eq_ok hscan', Reader.finish_alike h]
  | failed hline =>
    rw [decode_of_scanHeader_eq_error hscan, decode_of_scanHeader_eq_error hscan', hline]
    rfl
  | @stopped scanner e _ hstop hline =>
    rw [decode_of_scanHeader_eq_ok hscan, decode_of_scanHeader_eq_error hscan', hline,
      Reader.finish_of_nothing, hstop, Decoded.upTo_ended, Dialect.settled_nil]

/-- A dump whose first line fails has nothing before the failure. -/
theorem decode_of_marked_error {reason : Text} {rest : List Reading}
    (h : Cursor.Marked (.error reason :: rest) (Cursor.consumeMark { source })) :
    decode dialect source = ⟨[], [], some ⟨0, .input reason⟩, 0⟩ := by
  have hheader := Cursor.scanHeader_eq_scanUnmarked { source }
  generalize Cursor.consumeMark { source } = answer at h hheader
  cases h with
  | failed h =>
    cases h
    rw [decode_of_scanHeader_eq_error hheader]
  | passed hreads =>
    rcases hreads.scanUnmarked_error with hscan | ⟨source₁, hscan⟩
    · -- The failure is left to the first call for a link.
      obtain ⟨source₁, hlink⟩ := hreads.readLink_error dialect
      rw [decode_of_scanHeader_eq_ok (hheader.trans hscan), Reader.finish_of_error hlink]
    · rw [decode_of_scanHeader_eq_error (hheader.trans hscan)]

/-- What is still to come behind the mark decides all of decoding. -/
theorem decode_of_marked {readings readings' : List Reading}
    (hmarked : Cursor.Marked readings (Cursor.consumeMark { source }))
    (hmarked' : Cursor.Marked readings' (Cursor.consumeMark { source := source' }))
    (hagree : AgreeUpTo stop 0 readings readings') :
    decode dialect source' = (decode dialect source).upTo stop dialect := by
  by_cases hfirst : ∃ reason rest, readings = .error reason :: rest
  · obtain ⟨reason, rest, rfl⟩ := hfirst
    cases hagree with
    | failed =>
      rw [decode_of_marked_error hmarked, decode_of_marked_error hmarked']
      rfl
  · apply decode_of_headerAlike
    apply Cursor.headerAlike_of_marked hmarked hmarked' hagree
    intro reason rest heq
    exact hfirst ⟨reason, rest, heq⟩

end LinkDump
