import LinkDump.Proofs.CommandWords
import LinkDump.Proofs.Reports
import LinkDump.Proofs.Shapes
import LinkDump.Proofs.StatsCounts

/-! # The commands agree
Each command reads its file in its own way, but what it prints is a function of what decoding the
whole file gives. So all commands succeed on the same files, with the same counts, and on all others
they fail for the same reason. -/

namespace LinkDump

/-! ## Lines of a listing -/

/-- A character is spelled as itself, or as a backslash and a letter if it is part of a line break.
-/
theorem listingChar_cases (c : Char) :
    (listingChar c = [c] ∧ c ≠ '\r' ∧ c ≠ '\n') ∨ listingChar c = ['\\', 'r'] ∨
      listingChar c = ['\\', 'n'] := by
  rw [listingChar]
  split
  · exact .inr (.inl rfl)
  next hreturn =>
    split
    · exact .inr (.inr rfl)
    next hnewline => exact .inl ⟨rfl, hreturn, hnewline⟩

/-- A record that is printed on one line has no carriage return and no newline. -/
theorem ne_of_mem_oneLine {text : Text} {c : Char} (h : c ∈ oneLine text) :
    c ≠ '\r' ∧ c ≠ '\n' := by
  rw [oneLine, List.mem_flatMap] at h
  obtain ⟨d, -, hmem⟩ := h
  rcases listingChar_cases d with ⟨hspelled, hne⟩ | hspelled | hspelled <;> rw [hspelled] at hmem
  · rwa [List.mem_singleton.mp hmem]
  · rcases List.mem_pair.mp hmem with rfl | rfl <;> decide
  · rcases List.mem_pair.mp hmem with rfl | rfl <;> decide

/-- A record that is printed on one line has no newline of its own. -/
theorem newline_not_mem_oneLine (text : Text) : '\n' ∉ oneLine text :=
  fun h => (ne_of_mem_oneLine h).2 rfl

/-- Lines without newlines are the same lines when they are printed, each closed with a newline. -/
theorem textLines_unlines_of_forall {lines : List Text} (h : ∀ line ∈ lines, '\n' ∉ line) :
    textLines (unlines lines) = lines.map (· ++ ['\n']) := by
  induction lines with
  | nil => rfl
  | cons line lines ih =>
    rw [List.forall_mem_cons] at h
    rw [unlines_cons, textLines_append_newline, splitOn_of_not_mem h.1, ih h.2]
    rfl

/-- As many lines can be read as have been printed, if none of them has a newline. -/
theorem length_textLines_unlines {lines : List Text} (h : ∀ line ∈ lines, '\n' ∉ line) :
    (textLines (unlines lines)).length = lines.length := by
  rw [textLines_unlines_of_forall h, List.length_map]

/-! ## What decoding gives -/

/-- Up to the first error, the items of a decoded dump are its links. -/
theorem Decoded.cutAtError_items (decoded : Decoded) :
    cutAtError decoded.items = (decoded.links, decoded.failure) := by
  rw [items]
  cases decoded.failure with
  | none => rw [Option.toList_none, List.map_nil, List.append_nil, cutAtError_map_ok]
  | some e => exact cutAtError_map_ok_append_error decoded.links e []

namespace Reader

variable {reader : Reader} {dialect : Dialect} {source : Source}

/-- Reading to the end leaves the fields as they are. -/
theorem Knows.readLinks {known : List MetaField} (h : reader.Knows known) :
    reader.readLinks.2.2.Knows known := by
  fun_induction Reader.readLinks reader with
  | case1 reader reader₁ hread =>
    have hnext := h.call_link
    rwa [call_link_snd, hread] at hnext
  | case2 reader e reader₁ hread =>
    have hnext := h.call_link
    rwa [call_link_snd, hread] at hnext
  | case3 reader link reader₁ hread links failure reader₂ hrest ih =>
    have hnext := h.call_link
    rw [call_link_snd, hread] at hnext
    have hlast := ih hnext
    rwa [hrest] at hlast

/-- Behind a header that is accepted, the fields are those that are decoded, and what is left is
decoded to the same end. -/
theorem exists_readFields_of_scanHeader (dialect : Dialect) {cursor : Cursor}
    (hscan : (Cursor.scanHeader { source }).2 = .ok () cursor) :
    ∃ reader, (ofSource dialect source).readFields = .ok (decode dialect source).fields reader ∧
      reader.finish = decode dialect source := by
  have hfields := readFields_of_scanHeader_eq_ok dialect hscan
  have hdecode := decode_of_readFields_eq_ok hfields
  have hknows : Knows source.headerFields ⟨cursor, dialect, source.headerFields, .links⟩ :=
    ⟨Phase.noConfusion, rfl⟩
  have hknown : (decode dialect source).fields = source.headerFields := by
    rw [hdecode]
    exact hknows.readLinks.fields_eq
  exact ⟨_, hknown ▸ hfields, hdecode.symm⟩

/-- Asking for the fields first fails only where decoding fails, and changes nothing of what is
decoded. -/
theorem readFields_ofSource (dialect : Dialect) (source : Source) :
    (∃ reader, (ofSource dialect source).readFields = .ok (decode dialect source).fields reader ∧
        reader.finish = decode dialect source) ∨
      ∃ e reader, (ofSource dialect source).readFields = .error e reader ∧
        (decode dialect source).failure = some e := by
  cases hscan : (Cursor.scanHeader { source }).2 with
  | ok value cursor => exact .inl (exists_readFields_of_scanHeader dialect hscan)
  | error cause cursor =>
    refine .inr ⟨_, _, readFields_of_scanHeader_eq_error dialect hscan, ?_⟩
    rw [decode_of_scanHeader_eq_error (Prod.ext rfl hscan)]

/-- What is decoded to its end is decoded behind its fields. -/
theorem exists_readFields_of_end (hend : (decode dialect source).failure = none) :
    ∃ reader, (ofSource dialect source).readFields = .ok (decode dialect source).fields reader ∧
      reader.finish = decode dialect source := by
  refine (readFields_ofSource dialect source).resolve_right ?_
  rintro ⟨e, reader, -, hfailure⟩
  rw [hend] at hfailure
  cases hfailure

/-- What fails is the header, or what is decoded behind it. -/
theorem readFields_of_failure {e : DecodeError}
    (hfailure : (decode dialect source).failure = some e) :
    (∃ fields reader, (ofSource dialect source).readFields = .ok fields reader ∧
        reader.finish.failure = some e) ∨
      ∃ reader, (ofSource dialect source).readFields = .error e reader := by
  rcases readFields_ofSource dialect source with ⟨reader, hread, hfinish⟩ | ⟨e', reader, hread, he⟩
  · exact .inl ⟨_, reader, hread, hfinish ▸ hfailure⟩
  · obtain rfl : e' = e := Option.some.inj (he.symm.trans hfailure)
    exact .inr ⟨reader, hread⟩

end Reader

/-! ## What the commands print -/

namespace CommandLine

/-- A failure that is told to be because of this error: however much is logged, the error output
ends with it. -/
def Outcome.FailsWith (e : DecodeError) (outcome : Outcome) : Prop :=
  outcome.exit = 1 ∧ ∀ logged, e.message ++ ['\n'] <:+ outcome.errorOutput logged

/-- A failure whose account ends with an error is told to be because of it. -/
theorem Outcome.failsWith_failure (lines : List Text) (account : Text) (e : DecodeError) :
    (failure lines (account ++ e.message)).FailsWith e := by
  refine ⟨rfl, fun logged => ⟨logged ++ "error: ".toList ++ account, ?_⟩⟩
  rw [errorOutput, failure, unlines_cons, unlines_nil]
  simp

section

variable {dialect : Dialect} {source : Source}

/-! ### Success -/

section Success

variable (hend : (decode dialect source).failure = none)
include hend

/-- What is decoded to its end is printed whole, each record on a line. -/
theorem inspect_of_end (file : Text) :
    inspect none false file (.ofSource dialect source) =
      .success ((decode dialect source).render.map oneLine) := by
  obtain ⟨reader, hread, hfinish⟩ := Reader.exists_readFields_of_end hend
  rw [inspect, hread]
  simp only [itemsOf, hfinish, Decoded.cutAtError_items, hend, Decoded.render, List.map_append,
    List.map_map]
  rfl

/-- What is decoded to its end is valid, and its fields, its links and its lines are counted. -/
theorem validate_of_end :
    validate (.ofSource dialect source) = .success [
      "✓ Header: ".toList ++ counted (decode dialect source).fields.length "meta field",
      "✓ Links: ".toList ++ counted (decode dialect source).links.length "link" ++
        " decoded".toList,
      "✓ Lines: ".toList ++ Nat.toDigits 10 (decode dialect source).line ++
        " lines read".toList] := by
  obtain ⟨reader, hread, hfinish⟩ := Reader.exists_readFields_of_end hend
  rw [validate, hread]
  simp only [hfinish, hend]

/-- What is decoded to its end is counted, and the counts are reported in the form that is asked
for. -/
theorem stats_of_end (json : Bool) (file : Text) :
    let counts := Stats.ofLinks (decode dialect source).fields.length (decode dialect source).links
    stats json file dialect (.ofSource dialect source) =
      .success (if json then counts.jsonLines else counts.tableLines file dialect) := by
  obtain ⟨reader, hread, hfinish⟩ := Reader.exists_readFields_of_end hend
  rw [stats, hread]
  simp only [hfinish, Stats.ofItems_eq, Decoded.cutAtError_items, hend]

/-- What is decoded to its end has its distinct sources listed. -/
theorem shortcodes_of_end (file : Text) :
    shortcodes file (.ofSource dialect source) =
      .success (distinctSources (decode dialect source).links) := by
  have hfinish : (Reader.ofSource dialect source).finish = decode dialect source := rfl
  simp only [shortcodes, distinctSourcesOfItems, hfinish, Decoded.cutAtError_items, hend]

end Success

/-! ### Failure -/

section Failure

variable {e : DecodeError} (hfailure : (decode dialect source).failure = some e)
include hfailure

/-- Inspecting fails with the error of decoding. -/
theorem inspect_of_failure (file : Text) :
    (inspect none false file (.ofSource dialect source)).FailsWith e := by
  rw [inspect]
  rcases Reader.readFields_of_failure hfailure with ⟨fields, reader, hread, he⟩ | ⟨reader, hread⟩
  · rw [hread]
    simp only [itemsOf, Decoded.cutAtError_items, he]
    exact Outcome.failsWith_failure _ _ e
  · rw [hread]
    exact Outcome.failsWith_failure _ _ e

/-- What is not decoded to its end is not valid: the last line that is printed tells the error. -/
theorem validate_of_failure :
    ∃ lines, validate (.ofSource dialect source) =
      .failure (lines ++ ["✗ Error: ".toList ++ e.message]) "validation failed".toList := by
  rw [validate]
  rcases Reader.readFields_of_failure hfailure with ⟨fields, reader, hread, he⟩ | ⟨reader, hread⟩
  · rw [hread]
    simp only [he]
    exact ⟨_, rfl⟩
  · rw [hread]
    exact ⟨[], rfl⟩

/-- Counting fails with the error of decoding, and prints nothing. -/
theorem stats_of_failure (json : Bool) (file : Text) :
    (stats json file dialect (.ofSource dialect source)).FailsWith e ∧
      (stats json file dialect (.ofSource dialect source)).stdout = [] := by
  rw [stats]
  rcases Reader.readFields_of_failure hfailure with ⟨fields, reader, hread, he⟩ | ⟨reader, hread⟩
  · rw [hread]
    simp only [Stats.ofItems_eq, Decoded.cutAtError_items, he]
    exact ⟨Outcome.failsWith_failure _ _ e, rfl⟩
  · rw [hread]
    exact ⟨Outcome.failsWith_failure _ _ e, rfl⟩

/-- Listing the sources fails with the error of decoding, and prints nothing. -/
theorem shortcodes_of_failure (file : Text) :
    (shortcodes file (.ofSource dialect source)).FailsWith e ∧
      (shortcodes file (.ofSource dialect source)).stdout = [] := by
  have hfinish : (Reader.ofSource dialect source).finish = decode dialect source := rfl
  simp only [shortcodes, distinctSourcesOfItems, hfinish, Decoded.cutAtError_items, hfailure]
  exact ⟨Outcome.failsWith_failure _ _ e, rfl⟩

end Failure

end

/-! ## The same arguments -/

/-- A command line that is understood runs its command on what the file gives. -/
theorem run_of_parse {arguments : List Text} {place : Place} {source : Source} {command : Command}
    {file : Text} {dialect : Dialect} (hparse : parse arguments = some ⟨command, file, dialect⟩)
    (hopen : place.openFile file = .ok source) :
    run arguments place = Invocation.run ⟨command, file, dialect⟩ (.ok source) := by
  rw [run, hparse]
  simp only [hopen]

/-- The commands, each as the words that ask for it. -/
def commandWords : List (List String) :=
  [["validate"], ["stats"], ["stats", "--json"], ["shortcodes"], ["inspect"]]

/-- All commands succeed on a file and agree on its counts. The one that validates and the ones that
count print them in decimal; the others print as many lines. -/
structure AllSucceed (file : Text) (dialect : Dialect) (stats : Stats) (lines : Nat)
    (outcome : List String → Outcome) : Prop where
  exit : ∀ words ∈ commandWords, (outcome words).exit = 0
  validate : (outcome ["validate"]).stdout = unlines [
    "✓ Header: ".toList ++ Nat.toDigits 10 stats.metaFields ++
      if stats.metaFields = 1 then " meta field".toList else " meta fields".toList,
    "✓ Links: ".toList ++ Nat.toDigits 10 stats.links ++
      if stats.links = 1 then " link decoded".toList else " links decoded".toList,
    "✓ Lines: ".toList ++ Nat.toDigits 10 lines ++ " lines read".toList]
  table : (outcome ["stats"]).stdout = unlines [
    "File:    ".toList ++ file,
    "Dialect: ".toList ++ match dialect with
      | .rfc => "rfc".toList
      | .variableWidth => "urlteam (variable width)".toList
      | .fixedWidth width =>
        "urlteam (shortcode width ".toList ++ Nat.toDigits 10 width ++ ")".toList,
    "Meta:    ".toList ++ Nat.toDigits 10 stats.metaFields ++ " fields".toList,
    [],
    "Links               ".toList ++ (Nat.toDigits 10 stats.links).leftpad 10 ' ',
    "──────────────────────────────".toList,
    "with annotation     ".toList ++ (Nat.toDigits 10 stats.annotated).leftpad 10 ' ',
    "empty target        ".toList ++ (Nat.toDigits 10 stats.emptyTargets).leftpad 10 ' ',
    "multi-line target   ".toList ++ (Nat.toDigits 10 stats.multilineTargets).leftpad 10 ' ',
    "distinct sources    ".toList ++ (Nat.toDigits 10 stats.distinctSources).leftpad 10 ' ']
  json : (outcome ["stats", "--json"]).stdout = unlines [
    "\x7b".toList,
    "  \"meta_fields\": ".toList ++ Nat.toDigits 10 stats.metaFields ++ ",".toList,
    "  \"links\": ".toList ++ Nat.toDigits 10 stats.links ++ ",".toList,
    "  \"annotated\": ".toList ++ Nat.toDigits 10 stats.annotated ++ ",".toList,
    "  \"empty_targets\": ".toList ++ Nat.toDigits 10 stats.emptyTargets ++ ",".toList,
    "  \"multiline_targets\": ".toList ++ Nat.toDigits 10 stats.multilineTargets ++ ",".toList,
    "  \"distinct_sources\": ".toList ++ Nat.toDigits 10 stats.distinctSources,
    "\x7d".toList]
  inspect : (textLines (outcome ["inspect"]).stdout).length = stats.metaFields + stats.links
  shortcodes : (textLines (outcome ["shortcodes"]).stdout).length = stats.distinctSources

/-- All commands fail on a file, and because of the same error. Whatever else is logged, the error
output of those that tell of it ends with it. -/
structure AllFail (e : DecodeError) (outcome : List String → Outcome) : Prop where
  exit : ∀ words ∈ commandWords, (outcome words).exit = 1
  validate : ∃ lines, (outcome ["validate"]).stdout =
    unlines (lines ++ ["✗ Error: ".toList ++ e.message])
  silent : ∀ words ∈ [["stats"], ["stats", "--json"], ["shortcodes"]], (outcome words).stdout = []
  account : ∀ words ∈ [["inspect"], ["stats"], ["stats", "--json"], ["shortcodes"]],
    ∀ logged, e.message ++ ['\n'] <:+ (outcome words).errorOutput logged

/-- Each command is run on one source, in the same dialect. -/
structure Runs (file : Text) (dialect : Dialect) (source : Source)
    (outcome : List String → Outcome) : Prop where
  validate : outcome ["validate"] = CommandLine.validate (.ofSource dialect source)
  table : outcome ["stats"] = stats false file dialect (.ofSource dialect source)
  json : outcome ["stats", "--json"] = stats true file dialect (.ofSource dialect source)
  shortcodes : outcome ["shortcodes"] = CommandLine.shortcodes file (.ofSource dialect source)
  inspect : outcome ["inspect"] = CommandLine.inspect none false file (.ofSource dialect source)

section

variable {file : Text} {dialect : Dialect} {source : Source} {outcome : List String → Outcome}

/-- What is decoded to its end is counted alike by all commands. -/
theorem Runs.allSucceed (h : Runs file dialect source outcome)
    (hend : (decode dialect source).failure = none) :
    AllSucceed file dialect
      (.ofLinks (decode dialect source).fields.length (decode dialect source).links)
      (decode dialect source).line outcome := by
  obtain ⟨hvalidate, htable, hjson, hshortcodes, hinspect⟩ := h
  rw [validate_of_end hend, ← List.append_nil (counted _ "meta field"), List.append_assoc,
    counted_append, counted_append] at hvalidate
  rw [stats_of_end hend, if_neg Bool.false_ne_true, Stats.tableLines_eq] at htable
  rw [stats_of_end hend, if_pos rfl, Stats.jsonLines_eq] at hjson
  rw [shortcodes_of_end hend] at hshortcodes
  rw [inspect_of_end hend] at hinspect
  refine ⟨?_, congrArg Outcome.stdout hvalidate, congrArg Outcome.stdout htable,
    congrArg Outcome.stdout hjson, ?_, ?_⟩
  · simp only [commandWords, List.mem_cons, List.not_mem_nil, or_false]
    rintro words (rfl | rfl | rfl | rfl | rfl)
    · exact congrArg Outcome.exit hvalidate
    · exact congrArg Outcome.exit htable
    · exact congrArg Outcome.exit hjson
    · exact congrArg Outcome.exit hshortcodes
    · exact congrArg Outcome.exit hinspect
  · have hlines : ∀ line ∈ (decode dialect source).render.map oneLine, '\n' ∉ line := by
      rw [List.forall_mem_map]
      exact fun text _ => newline_not_mem_oneLine text
    rw [hinspect, Outcome.success, length_textLines_unlines hlines]
    simp [Decoded.render, Stats.ofLinks]
  · have hlines : ∀ line ∈ distinctSources (decode dialect source).links, '\n' ∉ line := by
      intro line hmem
      obtain ⟨link, hlink, rfl⟩ := List.mem_map.mp (mem_distinctSources.mp hmem)
      exact (shaped_of_mem_decode hlink).newline_not_mem_source
    rw [hshortcodes, Outcome.success, length_textLines_unlines hlines]
    rfl

/-- What fails to be decoded fails in all commands. -/
theorem Runs.allFail (h : Runs file dialect source outcome) {e : DecodeError}
    (hfailure : (decode dialect source).failure = some e) : AllFail e outcome := by
  obtain ⟨lines, hvalidate⟩ := validate_of_failure hfailure
  rw [← h.validate] at hvalidate
  have htable := stats_of_failure hfailure false file
  have hjson := stats_of_failure hfailure true file
  have hshortcodes := shortcodes_of_failure hfailure file
  have hinspect := inspect_of_failure hfailure file
  rw [← h.table] at htable
  rw [← h.json] at hjson
  rw [← h.shortcodes] at hshortcodes
  rw [← h.inspect] at hinspect
  refine ⟨?_, ⟨lines, congrArg Outcome.stdout hvalidate⟩, ?_, ?_⟩
  · simp only [commandWords, List.mem_cons, List.not_mem_nil, or_false]
    rintro words (rfl | rfl | rfl | rfl | rfl)
    · exact congrArg Outcome.exit hvalidate
    · exact htable.1.1
    · exact hjson.1.1
    · exact hshortcodes.1.1
    · exact hinspect.1
  · simp only [List.mem_cons, List.not_mem_nil, or_false]
    rintro words (rfl | rfl | rfl)
    · exact htable.2
    · exact hjson.2
    · exact hshortcodes.2
  · simp only [List.mem_cons, List.not_mem_nil, or_false]
    rintro words (rfl | rfl | rfl | rfl)
    · exact hinspect.2
    · exact htable.1.2
    · exact hjson.1.2
    · exact hshortcodes.1.2

end

/-- Whatever a file gives, and whichever settings stand before the command and around the file, all
commands succeed on it, or all of them fail. If they succeed, the one that validates and the ones
that count print the same counts, which are those of what is decoded, inspecting prints a line for
each field and each link, and as many sources are listed as are counted. If they fail, those that
count or list print nothing, the one that validates ends with the error, and the account of every
other one ends with the same error. -/
theorem commands_agree {front rest : List Text} {before : Settings} {file : Text}
    {dialect : Dialect} {place : Place} {source : Source}
    (hfront : itemsOfArguments front = some (before.map .setting))
    (hparse : parse (front ++ "validate".toList :: rest) = some ⟨.validate, file, dialect⟩)
    (hopen : place.openFile file = .ok source) :
    let decoded := decode dialect source
    let outcome (words : List String) := run (front ++ (words.map String.toList ++ rest)) place
    (decoded.failure = none ∧ AllSucceed file dialect
        (.ofLinks decoded.fields.length decoded.links) decoded.line outcome) ∨
      ∃ e, decoded.failure = some e ∧ AllFail e outcome := by
  intro decoded outcome
  obtain ⟨hinspect, hstats, hjson, hshortcodes⟩ := parse_of_parse_validate hfront hparse
  have hruns : Runs file dialect source outcome :=
    ⟨run_of_parse hparse hopen, run_of_parse hstats hopen, run_of_parse hjson hopen,
      run_of_parse hshortcodes hopen, run_of_parse hinspect hopen⟩
  cases hend : decoded.failure with
  | none => exact .inl ⟨rfl, hruns.allSucceed hend⟩
  | some e => exact .inr ⟨e, rfl, hruns.allFail hend⟩

/-- A field, and two records of two bytes with the same source, the first one over two lines. -/
def countedDump : Bytes :=
  [0x23, 0x41, 0x3A, 0x62, 0x0A, 0x0A, 0xC3, 0xA9, 0x7C, 0x78, 0x0A, 0x79, 0x0A, 0xC3, 0xA9, 0x7C]

/-- A line that has its bar one byte too far to the right for a width of two. -/
def misplacedBarDump : Bytes := [0x61, 0x62, 0x63, 0x7C]

/-- What is printed of a dump that is decoded to its end, and of one that is not. The dialect is
named before the command, the width behind it. -/
theorem commands_agree_on_two_dumps :
    let front := ["--dialect".toList, "urlteam".toList]
    let rest := ["--shortcode-len=2".toList, "dump.txt".toList]
    let outcome (dump : Bytes) (words : List String) :=
      run (front ++ (words.map String.toList ++ rest)) { here := [("dump.txt".toList, .file dump)] }
    let counted := outcome countedDump
    let refused := outcome misplacedBarDump
    (AllSucceed "dump.txt".toList (.fixedWidth 2)
        { metaFields := 1, links := 2, emptyTargets := 1, multilineTargets := 1,
          distinctSources := 1 } 5 counted ∧
      (counted ["validate"]).stdout =
        "✓ Header: 1 meta field\n✓ Links: 2 links decoded\n✓ Lines: 5 lines read\n".toList ∧
      (counted ["stats"]).stdout = unlines [
        "File:    dump.txt".toList,
        "Dialect: urlteam (shortcode width 2)".toList,
        "Meta:    1 fields".toList,
        "".toList,
        "Links                        2".toList,
        "──────────────────────────────".toList,
        "with annotation              0".toList,
        "empty target                 1".toList,
        "multi-line target            1".toList,
        "distinct sources             1".toList] ∧
      (counted ["stats", "--json"]).stdout = unlines [
        "\x7b".toList,
        "  \"meta_fields\": 1,".toList,
        "  \"links\": 2,".toList,
        "  \"annotated\": 0,".toList,
        "  \"empty_targets\": 1,".toList,
        "  \"multiline_targets\": 1,".toList,
        "  \"distinct_sources\": 1".toList,
        "\x7d".toList] ∧
      (counted ["inspect"]).stdout = "#A: b\né|x\\ny\né|\n".toList ∧
      (counted ["shortcodes"]).stdout = "é\n".toList) ∧
    ∃ e, e.message = "beacon: line 1: shortcode not 2 characters: \"abc|\"".toList ∧
      AllFail e refused ∧
      (refused ["validate"]).stdout =
        "✓ Header: 0 meta fields\n✗ Error: ".toList ++ e.message ++ ['\n'] ∧
      (refused ["inspect"]).stderr =
        "error: failed to decode dump.txt: ".toList ++ e.message ++ ['\n'] := by
  intro front rest outcome counted refused
  have hfront : itemsOfArguments front = some ([Setting.dialect .urlteam].map .setting) := by
    decide +kernel
  have hparse : parse (front ++ "validate".toList :: rest) =
      some ⟨.validate, "dump.txt".toList, .fixedWidth 2⟩ := by decide +kernel
  have hopen (dump : Bytes) :
      Place.openFile { here := [("dump.txt".toList, .file dump)] } "dump.txt".toList =
        .ok (.ofBytes dump) := rfl
  constructor
  · have hdecode : decode (.fixedWidth 2) (.ofBytes countedDump) =
        ⟨[⟨['A'], ['b']⟩], [⟨['é'], ['x', '\n', 'y'], []⟩, ⟨['é'], [], []⟩], none, 5⟩ := by
      decide +kernel
    have hagree := commands_agree hfront hparse (hopen countedDump)
    rw [hdecode] at hagree
    have hsources : distinctSources [⟨['é'], ['x', '\n', 'y'], []⟩, ⟨['é'], [], []⟩] = [['é']] :=
      (listsSources_distinctSources _).unique ⟨by decide, by simp [eq_comm]⟩
    have hcounts : Stats.ofLinks 1 [⟨['é'], ['x', '\n', 'y'], []⟩, ⟨['é'], [], []⟩] =
        { metaFields := 1, links := 2, emptyTargets := 1, multilineTargets := 1,
          distinctSources := 1 } := by
      rw [Stats.ofLinks, hsources]
      rfl
    have hsucceed := (hagree.resolve_right fun ⟨e, hfailure, _⟩ => nomatch hfailure).2
    simp only [List.length_singleton] at hsucceed
    rw [hcounts] at hsucceed
    refine ⟨hsucceed, hsucceed.validate.trans (by decide +kernel),
      hsucceed.table.trans (by decide +kernel), hsucceed.json.trans (by decide +kernel),
      by decide +kernel, ?_⟩
    have hparse' : parse (front ++ "shortcodes".toList :: rest) =
        some ⟨.shortcodes, "dump.txt".toList, .fixedWidth 2⟩ := by decide +kernel
    have hshortcodes : counted ["shortcodes"] = shortcodes "dump.txt".toList
        (.ofSource (.fixedWidth 2) (.ofBytes countedDump)) :=
      run_of_parse hparse' (hopen countedDump)
    rw [hshortcodes, shortcodes_of_end (by rw [hdecode]), hdecode, hsources]
    rfl
  · have hagree := commands_agree hfront hparse (hopen misplacedBarDump)
    have hdecode : decode (.fixedWidth 2) (.ofBytes misplacedBarDump) =
        ⟨[], [], some ⟨1, .barNotAtWidth 2 "abc|".toList⟩, 1⟩ := by decide +kernel
    rw [hdecode] at hagree
    obtain ⟨e, he, hfail⟩ := hagree.resolve_left fun ⟨hend, _⟩ => nomatch hend
    obtain rfl := Option.some.inj he
    exact ⟨_, by decide +kernel, hfail, by decide +kernel, by decide +kernel⟩

end CommandLine

end LinkDump
