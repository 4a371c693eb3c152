import LinkDump.Proofs.BarsRoundTrip
import LinkDump.Proofs.SingleLines

/-! # The normal form of a line with bars
A line with at most two bars says one link, and the rendering of that link is the line itself up to
two things: a bar is added behind a source that stands alone, and the place of an empty note is
closed up. `Link.SaidBy` lists the three forms of a line. A rendering says the link that it renders,
so it is the normal form of all lines that say that link. -/

namespace LinkDump

namespace Link

/-- The forms of a line with fields between bars, and the link that it says. -/
inductive SaidBy : Text → Link → Prop
  | source (source : Text) : SaidBy source ⟨source, [], []⟩
  | target (source target : Text) : SaidBy (source ++ '|' :: target) ⟨source, target, []⟩
  | note (source note target : Text) :
    SaidBy (source ++ '|' :: (note ++ '|' :: target)) ⟨source, target, note⟩

/-- A link without bars in any of its fields. -/
structure Barless (link : Link) : Prop where
  source : '|' ∉ link.source
  note : '|' ∉ link.note
  target : '|' ∉ link.target

instance (link : Link) : Decidable link.Barless :=
  decidable_of_iff ('|' ∉ link.source ∧ '|' ∉ link.note ∧ '|' ∉ link.target)
    ⟨fun h => ⟨h.1, h.2.1, h.2.2⟩, fun h => ⟨h.1, h.2, h.3⟩⟩

/-! ## Cutting a line at its bars -/

/-- More than two bars in a line are refused, and nothing else is. -/
theorem ofBars_eq_error_iff {line : Text} {e : LineError} :
    ofBars line = .error e ↔ 3 ≤ line.count '|' ∧ e = .tooManyBars line := by
  have hlength := length_splitOn '|' line
  unfold ofBars
  -- All that matters is the number of pieces.
  generalize line.splitOn '|' = pieces at hlength ⊢
  match pieces, hlength with
  | [], hlength => cases hlength
  | [_], hlength | [_, _], hlength | [_, _, _], hlength =>
    have hfew : ¬3 ≤ line.count '|' := by
      simp only [List.length_cons, List.length_nil] at hlength
      omega
    simp [hfew]
  | _ :: _ :: _ :: _ :: more, hlength =>
    have hmany : 3 ≤ line.count '|' := by
      simp only [List.length_cons] at hlength
      omega
    simp [hmany, eq_comm]

/-- A line that is read says its link, and its bars are no part of that link. -/
theorem saidBy_of_ofBars {line : Text} {link : Link} (h : ofBars line = .ok link) :
    SaidBy line link ∧ link.Barless := by
  -- The pieces have no bars, and put together with bars they are the line.
  have hline : ['|'].intercalate (line.splitOn '|') = line := List.intercalate_splitOn '|'
  have hbarless : ∀ piece ∈ line.splitOn '|', '|' ∉ piece :=
    fun piece hmem hbar => (ne_and_mem_of_mem_splitOn hmem hbar).1 rfl
  rw [ofBars] at h
  split at h
  next source hsplit =>
    cases h
    rw [hsplit] at hline hbarless
    rw [List.forall_mem_singleton] at hbarless
    have hjoin : source = line := by simpa [List.intercalate] using hline
    rw [← hjoin]
    exact ⟨.source source, ⟨hbarless, List.not_mem_nil, List.not_mem_nil⟩⟩
  next source target hsplit =>
    cases h
    rw [hsplit] at hline hbarless
    rw [List.forall_mem_cons, List.forall_mem_singleton] at hbarless
    have hjoin : source ++ '|' :: target = line := by simpa [List.intercalate] using hline
    rw [← hjoin]
    exact ⟨.target source target, ⟨hbarless.1, List.not_mem_nil, hbarless.2⟩⟩
  next source note target hsplit =>
    cases h
    rw [hsplit] at hline hbarless
    rw [List.forall_mem_cons, List.forall_mem_cons, List.forall_mem_singleton] at hbarless
    have hjoin : source ++ '|' :: (note ++ '|' :: target) = line := by
      simpa [List.intercalate] using hline
    rw [← hjoin]
    exact ⟨.note source note target, ⟨hbarless.1, hbarless.2.1, hbarless.2.2⟩⟩
  · cases h

/-! ## Rendering what was read -/

namespace SaidBy

variable {line : Text} {link : Link}

/-- A line has as many bars as its form, if the fields of its link have none. -/
theorem count_eq (h : SaidBy line link) (hlink : link.Barless) :
    (line.count '|' = 0 ∧ link.render = line ++ ['|']) ∨
    (line.count '|' = 1 ∧ link.render = line) ∨
    (line.count '|' = 2 ∧ line = link.source ++ '|' :: (link.note ++ '|' :: link.target)) := by
  obtain ⟨hsource, hnote, htarget⟩ := hlink
  cases h with
  | source source => exact .inl ⟨List.count_eq_zero.mpr hsource, rfl⟩
  | target source target =>
    refine .inr (.inl ⟨?_, rfl⟩)
    rw [List.count_append, List.count_cons_self, List.count_eq_zero.mpr hsource,
      List.count_eq_zero.mpr htarget]
  | note source note target =>
    refine .inr (.inr ⟨?_, rfl⟩)
    rw [List.count_append, List.count_cons_self, List.count_append, List.count_cons_self,
      List.count_eq_zero.mpr hsource, List.count_eq_zero.mpr hnote,
      List.count_eq_zero.mpr htarget]

/-- A source that stands alone is rendered with a bar behind it. -/
theorem render_of_count_eq_zero (h : SaidBy line link) (hlink : link.Barless)
    (hcount : line.count '|' = 0) : link.render = line ++ ['|'] := by
  rcases h.count_eq hlink with ⟨-, hrender⟩ | ⟨hone, -⟩ | ⟨htwo, -⟩
  · exact hrender
  · omega
  · omega

/-- A source and a target are rendered as they stand. -/
theorem render_of_count_eq_one (h : SaidBy line link) (hlink : link.Barless)
    (hcount : line.count '|' = 1) : link.render = line := by
  rcases h.count_eq hlink with ⟨hnone, -⟩ | ⟨-, hrender⟩ | ⟨htwo, -⟩
  · omega
  · exact hrender
  · omega

/-- Two bars stand on the two sides of the note, which may be empty. -/
theorem eq_of_count_eq_two (h : SaidBy line link) (hlink : link.Barless)
    (hcount : line.count '|' = 2) :
    line = link.source ++ '|' :: (link.note ++ '|' :: link.target) := by
  rcases h.count_eq hlink with ⟨hnone, -⟩ | ⟨hone, -⟩ | ⟨-, hline⟩
  · omega
  · omega
  · exact hline

/-- A note between two bars is rendered in its place. -/
theorem render_of_apart (h : SaidBy line link) (hlink : link.Barless)
    (hcount : line.count '|' = 2) (hapart : ¬['|', '|'] <:+: line) : link.render = line := by
  have hline := h.eq_of_count_eq_two hlink hcount
  obtain ⟨source, target, note⟩ := link
  cases note with
  | nil =>
    -- The bars around an empty note are adjacent.
    exact absurd ⟨source, target, by simp [hline]⟩ hapart
  | cons c note =>
    rw [hline]
    simp

/-- The place of an empty note is closed up. -/
theorem render_of_adjacent (h : SaidBy line link) (hlink : link.Barless)
    (hcount : line.count '|' = 2) {before after : Text}
    (hline : line = before ++ '|' :: '|' :: after) : link.render = before ++ '|' :: after := by
  have hbefore : '|' ∉ before := by
    rw [hline, List.count_append, List.count_cons_self, List.count_cons_self] at hcount
    rw [← List.count_eq_zero]
    omega
  -- The first bar is where the source ends, and the second one where the note ends.
  have hcuts := hline.symm.trans (h.eq_of_count_eq_two hlink hcount)
  obtain ⟨hsource, hrest⟩ := eq_of_append_cons hbefore hlink.source hcuts
  have hempty : [] ++ '|' :: after = link.note ++ '|' :: link.target := hrest
  obtain ⟨hnote, htarget⟩ := eq_of_append_cons List.not_mem_nil hlink.note hempty
  obtain ⟨source, target, note⟩ := link
  obtain rfl : before = source := hsource
  obtain rfl : [] = note := hnote
  obtain rfl : after = target := htarget
  rfl

end SaidBy

/-- Reading and rendering undo each other up to a normal form. A link without bars in its fields is
what its rendering says. A line is refused exactly if it has three bars or more, and then as a
whole. Any other line says a link without bars, and so does the rendering of that link, which is the
line itself if it has one bar, or two with something between them, the line with a bar behind it if
it has none, and the line with one bar in place of two if its two bars are adjacent. -/
theorem bars_normal_form :
    (∀ link : Link, link.Barless → ofBars link.render = .ok link) ∧
    ∀ line : Text,
      (∀ e, ofBars line = .error e ↔ 3 ≤ line.count '|' ∧ e = .tooManyBars line) ∧
      ∀ link, ofBars line = .ok link →
        link.Barless ∧ ofBars link.render = .ok link ∧
        (line.count '|' = 0 → link.render = line ++ ['|']) ∧
        (line.count '|' = 1 → link.render = line) ∧
        (line.count '|' = 2 → ¬['|', '|'] <:+: line → link.render = line) ∧
        ∀ before after, line.count '|' = 2 → line = before ++ '|' :: '|' :: after →
          link.render = before ++ '|' :: after := by
  have hrender : ∀ link : Link, link.Barless → ofBars link.render = .ok link :=
    fun link h => ofBars_render (by simp [h.source, h.note, h.target])
  refine ⟨hrender, fun line => ⟨fun e => ofBars_eq_error_iff, ?_⟩⟩
  intro link hread
  obtain ⟨hsaid, hlink⟩ := saidBy_of_ofBars hread
  exact ⟨hlink, hrender link hlink, hsaid.render_of_count_eq_zero hlink,
    hsaid.render_of_count_eq_one hlink, hsaid.render_of_apart hlink,
    fun before after hcount => hsaid.render_of_adjacent hlink hcount⟩

/-- A line whose two bars are adjacent, at its end; its normal form, which says the same; and a line
with a bar too many. -/
theorem bars_normal_form_of_empty_note :
    (Link.mk ['a'] [] []).render = ['a', '|'] ∧ ofBars ['a', '|'] = .ok ⟨['a'], [], []⟩ ∧
    ofBars ['|', 'a', '|', '|'] = .error (.tooManyBars ['|', 'a', '|', '|']) := by
  obtain ⟨-, hread⟩ := bars_normal_form.2 ['a', '|', '|']
  obtain ⟨-, hagain, -, -, -, hadjacent⟩ := hread ⟨['a'], [], []⟩ (by decide)
  have hrender := hadjacent ['a'] [] (by decide) rfl
  rw [hrender] at hagain
  exact ⟨hrender, hagain, ((bars_normal_form.2 _).1 _).mpr ⟨by decide, rfl⟩⟩

end Link

end LinkDump
