import LinkDump.Proofs.Quotations
import LinkDump.Report.Listing
import LinkDump.Report.Stats

/-! # Reports can be read back
A report shows each count by its decimal digits, in a line whose other characters do not depend on
it: behind a label, in front of a noun, or as the value of an entry. Here the lines are written out,
and the counts are read back from them. So two dumps have the same report only if they have the same
counts, and a table tells the dialect too. -/

namespace LinkDump

/-! ## Counts with a noun -/

/-- The noun is in the singular behind exactly one, and in the plural behind any other number, none
at all included; more words may follow it. -/
theorem counted_append (count : Nat) (noun : String) (rest : Text) :
    counted count noun ++ rest = Nat.toDigits 10 count ++
      if count = 1 then ' ' :: (noun.toList ++ rest) else ' ' :: (noun.toList ++ 's' :: rest) := by
  rw [counted]
  split
  · simp only [List.append_assoc, List.cons_append, List.nil_append]
  · simp only [List.append_assoc, List.cons_append, List.nil_append]

/-- A count is followed by a space, whatever its noun. -/
theorem exists_counted (count : Nat) (noun : String) :
    ∃ rest, counted count noun = Nat.toDigits 10 count ++ ' ' :: rest := by
  rw [← List.append_nil (counted count noun), counted_append]
  split
  · exact ⟨_, rfl⟩
  · exact ⟨_, rfl⟩

/-- The count can be read back, even in front of another noun. -/
theorem eq_of_counted_eq {count count' : Nat} {noun noun' : String}
    (h : counted count noun = counted count' noun') : count = count' := by
  obtain ⟨rest, hcount⟩ := exists_counted count noun
  obtain ⟨rest', hcount'⟩ := exists_counted count' noun'
  rw [hcount, hcount'] at h
  exact (eq_of_toDigits_append_cons (by decide) (by decide) (by decide) h).1

namespace Stats

/-! ## Rows -/

/-- A number in a column is what is left without the spaces in front of it. -/
theorem filter_leftpad_toDigits (n : Nat) :
    ((Nat.toDigits 10 n).leftpad 10 ' ').filter (· != ' ') = Nat.toDigits 10 n := by
  rw [List.leftpad, List.filter_append, List.filter_replicate_of_neg (by decide), List.nil_append,
    List.filter_eq_self]
  intro c hc
  rw [bne_iff_ne]
  exact ne_of_mem_of_not_mem hc (not_mem_toDigits (by decide) (by decide) n)

/-- The count of a row can be read back. -/
theorem row_injective (label : String) : Function.Injective (row label) := by
  intro n n' h
  have hcolumn := List.append_cancel_left h
  have hdigits := congrArg (List.filter (· != ' ')) hcolumn
  rw [filter_leftpad_toDigits, filter_leftpad_toDigits] at hdigits
  exact toDigits_injective (by decide) (by decide) hdigits

/-- A row with a label of no more than 20 characters and a count of no more than 10 digits is as
wide as the rule below the first one. -/
theorem length_row {label : String} {count : Nat} (hlabel : label.toList.length ≤ 20)
    (hcount : (Nat.toDigits 10 count).length ≤ 10) : (row label count).length = 30 := by
  rw [row, List.length_append, List.length_rightpad, List.length_leftpad, max_eq_left hlabel,
    max_eq_left hcount]

/-! ## Dialects -/

/-- A dialect can be told from its name in a report. -/
theorem dialectLabel_injective : Function.Injective dialectLabel := by
  intro dialect dialect' h
  -- The first character, or else the one behind the bracket, tells the three kinds apart.
  cases dialect with
  | rfc =>
    cases dialect' with
    | rfc => rfl
    | variableWidth | fixedWidth =>
      have hfirst : some 'r' = some 'u' := congrArg List.head? h
      exact absurd hfirst (by decide)
  | variableWidth =>
    cases dialect' with
    | rfc =>
      have hfirst : some 'u' = some 'r' := congrArg List.head? h
      exact absurd hfirst (by decide)
    | variableWidth => rfl
    | fixedWidth =>
      have hbehind : some 'v' = some 's' := congrArg (·[9]?) h
      exact absurd hbehind (by decide)
  | fixedWidth width =>
    cases dialect' with
    | rfc =>
      have hfirst : some 'u' = some 'r' := congrArg List.head? h
      exact absurd hfirst (by decide)
    | variableWidth =>
      have hbehind : some 's' = some 'v' := congrArg (·[9]?) h
      exact absurd hbehind (by decide)
    | fixedWidth width' =>
      have hdigits := List.append_cancel_left (List.append_cancel_right h)
      rw [toDigits_injective (by decide) (by decide) hdigits]

/-! ## Whole reports -/

/-- The lines of a table. -/
theorem tableLines_eq (stats : Stats) (file : Text) (dialect : Dialect) :
    stats.tableLines file dialect = [
      "File:    ".toList ++ file,
      "Dialect: ".toList ++ dialectLabel dialect,
      "Meta:    ".toList ++ Nat.toDigits 10 stats.metaFields ++ " fields".toList,
      [],
      "Links               ".toList ++ (Nat.toDigits 10 stats.links).leftpad 10 ' ',
      "──────────────────────────────".toList,
      "with annotation     ".toList ++ (Nat.toDigits 10 stats.annotated).leftpad 10 ' ',
      "empty target        ".toList ++ (Nat.toDigits 10 stats.emptyTargets).leftpad 10 ' ',
      "multi-line target   ".toList ++ (Nat.toDigits 10 stats.multilineTargets).leftpad 10 ' ',
      "distinct sources    ".toList ++ (Nat.toDigits 10 stats.distinctSources).leftpad 10 ' '] := by
  rfl

/-- The lines of a JSON object. -/
theorem jsonLines_eq (stats : Stats) :
    stats.jsonLines = [
      "\x7b".toList,
      "  \"meta_fields\": ".toList ++ Nat.toDigits 10 stats.metaFields ++ ",".toList,
      "  \"links\": ".toList ++ Nat.toDigits 10 stats.links ++ ",".toList,
      "  \"annotated\": ".toList ++ Nat.toDigits 10 stats.annotated ++ ",".toList,
      "  \"empty_targets\": ".toList ++ Nat.toDigits 10 stats.emptyTargets ++ ",".toList,
      "  \"multiline_targets\": ".toList ++ Nat.toDigits 10 stats.multilineTargets ++ ",".toList,
      "  \"distinct_sources\": ".toList ++ Nat.toDigits 10 stats.distinctSources,
      "\x7d".toList] := by
  rfl

/-- A table tells the file, the dialect and all counts. -/
theorem eq_of_tableLines_eq {stats stats' : Stats} {file file' : Text} {dialect dialect' : Dialect}
    (h : stats.tableLines file dialect = stats'.tableLines file' dialect') :
    stats = stats' ∧ file = file' ∧ dialect = dialect' := by
  simp only [tableLines, List.cons.injEq, and_true, true_and] at h
  obtain ⟨hfile, hdialect, hfields, hlinks, hannotated, hempty, hmultiline, hdistinct⟩ := h
  have hfields := List.append_cancel_left (List.append_cancel_right hfields)
  refine ⟨?_, List.append_cancel_left hfile,
    dialectLabel_injective (List.append_cancel_left hdialect)⟩
  rw [Stats.mk.injEq]
  exact ⟨toDigits_injective (by decide) (by decide) hfields, row_injective _ hlinks,
    row_injective _ hannotated, row_injective _ hempty, row_injective _ hmultiline,
    row_injective _ hdistinct⟩

/-- A JSON object tells all counts. -/
theorem jsonLines_injective : Function.Injective jsonLines := by
  intro stats stats' h
  simp only [jsonLines_eq, List.cons.injEq, List.append_cancel_left_eq,
    List.append_cancel_right_eq, and_true, true_and] at h
  obtain ⟨hfields, hlinks, hannotated, hempty, hmultiline, hdistinct⟩ := h
  have hinjective : Function.Injective (Nat.toDigits 10) :=
    toDigits_injective (by decide) (by decide)
  rw [Stats.mk.injEq]
  exact ⟨hinjective hfields, hinjective hlinks, hinjective hannotated, hinjective hempty,
    hinjective hmultiline, hinjective hdistinct⟩

end Stats

end LinkDump
