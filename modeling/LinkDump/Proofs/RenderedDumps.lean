import LinkDump.Proofs.FieldGrammar
import LinkDump.Proofs.LineBreaks

/-! # Dumps that are rendered
The text of a dump is the rendering of each meta field and of each link, on lines of their own, with
an empty line behind the fields. Its header gives the fields back, and what the lines behind it are
is left to the dialect. `MetaField.Renders` says of which fields this holds. -/

namespace LinkDump

/-- The text of a dump with these fields and links. -/
def dumpText (fields : List MetaField) (links : List Link) : Text :=
  unlines (fields.map MetaField.render ++ (if fields = [] then [] else [[]]) ++
    links.map Link.render)

/-! ## Meta fields -/

/-- The fields that their line gives back. -/
structure MetaField.Renders (field : MetaField) : Prop where
  name_ne_nil : field.name ≠ []
  all_isUpper : field.name.all Char.isUpper = true
  newline_not_mem : '\n' ∉ field.value
  any_isBlankChar : field.value.head?.any isBlankChar = false
  getLast?_ne : field.value.getLast? ≠ some '\r'

instance (field : MetaField) : Decidable field.Renders :=
  decidable_of_iff (field.name ≠ [] ∧ field.name.all Char.isUpper = true ∧ '\n' ∉ field.value ∧
      field.value.head?.any isBlankChar = false ∧ field.value.getLast? ≠ some '\r')
    ⟨fun h => ⟨h.1, h.2.1, h.2.2.1, h.2.2.2.1, h.2.2.2.2⟩,
      fun h => ⟨h.1, h.2, h.3, h.4, h.5⟩⟩

namespace MetaField.Renders

variable {field : MetaField}

/-- A field that renders is one that reading gives. -/
theorem proper (h : field.Renders) : field.Proper where
  name_ne_nil := h.name_ne_nil
  letters c hmem := isUpper_iff.mp (List.all_eq_true.mp h.all_isUpper c hmem)
  no_blank c hc hblank := by
    have hvalue := h.any_isBlankChar
    rw [Option.mem_def] at hc
    rw [hc, Option.any_some, isBlankChar_iff.mpr hblank] at hvalue
    cases hvalue

/-- A field that renders does so on one line. -/
theorem newline_not_mem_render (h : field.Renders) : '\n' ∉ field.render := by
  have hname : '\n' ∉ field.name := by
    intro hmem
    exact absurd (List.all_eq_true.mp h.all_isUpper _ hmem) (by decide)
  simp [MetaField.render, hname, h.newline_not_mem]

/-- No rendering of such a field ends like the first part of a line break. -/
theorem getLast?_render_ne (h : field.Renders) : field.render.getLast? ≠ some '\r' := by
  have hlast := h.getLast?_ne
  rw [MetaField.render, List.getLast?_append, List.getLast?_cons_cons]
  cases hvalue : field.value with
  | nil => simp
  | cons c value =>
    rw [hvalue] at hlast
    rw [List.getLast?_cons_cons]
    simpa using hlast

/-- The line of a field gives it back, however it is closed. -/
theorem fieldOfLine_line (h : field.Renders) {row : Row} (hrow : row.text = field.render) :
    fieldOfLine row.line = .ok field := by
  have hlast : row.text.getLast? ≠ some '\r' := by
    rw [hrow]
    exact h.getLast?_render_ne
  rw [fieldOfLine, Row.dropLineBreak_line hlast, hrow]
  exact (Spelling.ofField h.proper).ofText_text

end MetaField.Renders

/-! ## The header -/

/-- The lines of a header, in front of others. -/
def headerLines (fields : List MetaField) : List Text :=
  fields.map (fun field => field.render ++ ['\n']) ++ if fields = [] then [] else [['\n']]

/-- The row of a field is a meta line. -/
theorem isMetaLine_line {field : MetaField} {row : Row} (hrow : row.text = field.render) :
    isMetaLine row.line = true := by
  rw [isMetaLine, Row.line, hrow]
  rfl

/-- Lines fall into a header and what follows it wherever a run of meta lines and a run of blank
lines end. Without meta lines there is no header, and blank lines do not begin one. -/
theorem header_of_runs {front blanks body : List Text}
    (hfront : ∀ line ∈ front, isMetaLine line = true)
    (hblanks : ∀ line ∈ blanks, isBlankLine line = true) (hnone : front = [] → blanks = [])
    (hmeta : blanks = [] → ∀ line ∈ body.head?, isMetaLine line = false)
    (hbody : ∀ line ∈ body.head?, isBlankLine line = false) :
    metaLines (front ++ (blanks ++ body)) = front ∧
      (front ++ (blanks ++ body)).drop (headerLength (front ++ (blanks ++ body))) = body := by
  -- The run of meta lines ends with `front`, at a blank line or at the first line of the body.
  have hend : metaLines (blanks ++ body) = [] := by
    cases blanks with
    | nil =>
      cases body with
      | nil => rfl
      | cons line body =>
        rw [List.nil_append, metaLines, List.takeWhile_cons_of_neg (by simp [hmeta rfl line rfl])]
    | cons line blanks =>
      have hline : ¬isMetaLine line = true := by
        intro hline
        have hblank := hblanks line List.mem_cons_self
        rw [isBlankLine_of_isMetaLine hline] at hblank
        cases hblank
      rw [List.cons_append, metaLines, List.takeWhile_cons_of_neg hline]
  have hrun : metaLines (front ++ (blanks ++ body)) = front := by
    rw [metaLines, List.takeWhile_append_of_pos hfront, ← metaLines, hend, List.append_nil]
  refine ⟨hrun, ?_⟩
  cases front with
  | nil =>
    rw [headerLength_of_nil hrun, hnone rfl]
    rfl
  | cons line front =>
    have hne : metaLines (line :: front ++ (blanks ++ body)) ≠ [] := by
      rw [hrun]
      exact List.cons_ne_nil _ _
    rw [drop_headerLength_of_ne_nil hne, hrun, List.drop_left, List.dropWhile_append_of_pos hblanks]
    cases body with
    | nil => rfl
    | cons line body => rw [List.dropWhile_cons_of_neg (by simp [hbody line rfl])]

/-- The header of a rendered dump is its fields, and ends before what follows them. -/
theorem header_of_headerLines {fields : List MetaField} (hfields : ∀ field ∈ fields, field.Renders)
    (body : List Text) (hmeta : fields = [] → ∀ line ∈ body.head?, isMetaLine line = false)
    (hblank : ∀ line ∈ body.head?, isBlankLine line = false) :
    (metaLines (headerLines fields ++ body)).map fieldOfLine = fields.map .ok ∧
      (headerLines fields ++ body).drop (headerLength (headerLines fields ++ body)) = body := by
  have hfront : ∀ line ∈ fields.map (fun field => field.render ++ ['\n']),
      isMetaLine line = true := by
    intro line hline
    obtain ⟨field, -, rfl⟩ := List.mem_map.mp hline
    exact isMetaLine_line (rfl : (⟨field.render, .newline⟩ : Row).text = field.render)
  have hblanks : ∀ line ∈ if fields = [] then [] else [['\n']], isBlankLine line = true := by
    intro line hline
    split at hline
    · cases hline
    · obtain rfl := List.mem_singleton.mp hline
      rfl
  -- An empty line closes the fields off; without fields the first line must not look like one.
  have hnone : fields.map (fun field => field.render ++ ['\n']) = [] →
      (if fields = [] then [] else [['\n']]) = [] := by
    intro hnil
    rw [if_pos (List.map_eq_nil_iff.mp hnil)]
  have hfirst : (if fields = [] then [] else [['\n']]) = [] →
      ∀ line ∈ body.head?, isMetaLine line = false := by
    intro hnil
    apply hmeta
    by_contra hne
    rw [if_neg hne] at hnil
    cases hnil
  obtain ⟨hlines, hdrop⟩ := header_of_runs hfront hblanks hnone hfirst hblank
  rw [← List.append_assoc, ← headerLines] at hlines hdrop
  refine ⟨?_, hdrop⟩
  rw [hlines, List.map_map]
  apply List.map_congr_left
  intro field hfield
  exact (hfields field hfield).fieldOfLine_line
    (rfl : (⟨field.render, .newline⟩ : Row).text = field.render)

/-- The lines of a rendered dump are those of its header and those of each link. -/
theorem textLines_dumpText {fields : List MetaField} (hfields : ∀ field ∈ fields, field.Renders)
    (links : List Link) :
    textLines (dumpText fields links) = headerLines fields ++
      links.flatMap fun link => (link.render.splitOn '\n').map (· ++ ['\n']) := by
  have hheader : (fields.map MetaField.render).flatMap
      (fun text => (text.splitOn '\n').map (· ++ ['\n'])) =
      fields.map fun field => field.render ++ ['\n'] := by
    induction fields with
    | nil => rfl
    | cons field fields ih =>
      rw [List.forall_mem_cons] at hfields
      rw [List.map_cons, List.flatMap_cons, ih hfields.2,
        splitOn_of_not_mem hfields.1.newline_not_mem_render]
      rfl
  rw [dumpText, textLines_unlines, List.flatMap_append, List.flatMap_append, hheader,
    List.flatMap_map, headerLines]
  split <;> rfl

end LinkDump
