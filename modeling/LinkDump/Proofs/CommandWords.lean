import LinkDump.CommandLine.Run

/-! # Commands and their arguments
Arguments are read one by one, so what stands in front of a command and what stands behind it are
read the same whatever the command is. -/

namespace LinkDump

namespace CommandLine

/-! ## One argument -/

section

variable {argument : Text} {rest : List Text}

/-- Put an item in front of those that are read from the other arguments. -/
def readBefore (item : Item) (rest : List Text) : Option (List Item) :=
  (itemsOfArguments rest).bind fun items => some (item :: items)

/-- A flag with an equals sign has its value behind that sign. -/
theorem itemsOfArguments_of_equals (hdashes : argument ≠ "--".toList) (hflag : isFlag argument)
    {c : Char} {value : Text} (hvalue : argument.dropWhile (· != '=') = c :: value) :
    itemsOfArguments (argument :: rest) =
      (flagOfName (argument.takeWhile (· != '='))).bind fun flag =>
        (flag.withValue? value).bind fun setting => readBefore (.setting setting) rest := by
  rw [itemsOfArguments, if_neg hdashes, if_pos hflag, hvalue]
  rfl

/-- A flag without an equals sign is a switch, or has the next argument as its value. -/
theorem itemsOfArguments_of_flag (hdashes : argument ≠ "--".toList) (hflag : isFlag argument)
    (hvalue : argument.dropWhile (· != '=') = []) :
    itemsOfArguments (argument :: rest) =
      (flagOfName argument).bind fun flag =>
        match flag.switch?, rest with
        | some setting, rest => readBefore (.setting setting) rest
        | none, [] => none
        | none, value :: rest =>
          (flag.withValue? value).bind fun setting => readBefore (.setting setting) rest := by
  rw [itemsOfArguments, if_neg hdashes, if_pos hflag, hvalue]
  cases flagOfName argument with
  | none => rfl
  | some flag => cases flag <;> cases rest <;> rfl

/-- An argument that is no flag is a word. -/
theorem itemsOfArguments_of_word (hdashes : argument ≠ "--".toList) (hflag : ¬isFlag argument) :
    itemsOfArguments (argument :: rest) = readBefore (.word argument) rest := by
  rw [itemsOfArguments, if_neg hdashes, if_neg hflag]
  rfl

end

/-! ## Arguments in front of others -/

/-- In front of others, arguments none of which is two dashes are read on their own. -/
def ReadAlone (rest front : List Text) : Prop := ∀ items : List Item,
  itemsOfArguments front = some items → .separator ∉ items →
    itemsOfArguments (front ++ rest) = (itemsOfArguments rest).map (items ++ ·)

/-- Arguments that are read on their own still are with an item in front of them. -/
theorem ReadAlone.readBefore {rest front : List Text} (h : ReadAlone rest front) {item : Item}
    {items : List Item} (hread : readBefore item front = some items) (hsep : .separator ∉ items) :
    CommandLine.readBefore item (front ++ rest) = (itemsOfArguments rest).map (items ++ ·) := by
  obtain ⟨more, hmore, hitems⟩ := Option.bind_eq_some_iff.mp hread
  obtain rfl : item :: more = items := Option.some.inj hitems
  rw [CommandLine.readBefore, h more hmore fun hmem => hsep (List.mem_cons_of_mem item hmem)]
  cases itemsOfArguments rest <;> rfl

/-- Any arguments are, in front of any others: an item takes its own arguments and no more. -/
theorem readAlone (rest front : List Text) : ReadAlone rest front := by
  intro items h hsep
  induction front using itemsOfArguments.induct generalizing items with
  | case1 =>
    obtain rfl : items = [] := by simpa [itemsOfArguments] using h.symm
    simp
  | case2 more =>
    -- Two dashes alone are excluded: they would make words of all that follows.
    rw [itemsOfArguments, if_pos rfl] at h
    cases h
    simp at hsep
  | case3 argument more hdashes hflag c value hvalue ih =>
    -- A flag with its value behind an equals sign takes nothing from what follows.
    rw [itemsOfArguments_of_equals hdashes hflag hvalue] at h
    obtain ⟨flag, hname, h⟩ := Option.bind_eq_some_iff.mp h
    obtain ⟨setting, hsetting, h⟩ := Option.bind_eq_some_iff.mp h
    rw [List.cons_append, itemsOfArguments_of_equals hdashes hflag hvalue, hname, Option.bind_some,
      hsetting, Option.bind_some]
    exact ReadAlone.readBefore ih h hsep
  | case4 argument more hdashes hflag hvalue ih ih' =>
    rw [itemsOfArguments_of_flag hdashes hflag hvalue] at h
    obtain ⟨flag, hname, h⟩ := Option.bind_eq_some_iff.mp h
    rw [List.cons_append, itemsOfArguments_of_flag hdashes hflag hvalue, hname, Option.bind_some]
    cases hswitch : flag.switch? with
    | some setting =>
      rw [hswitch] at h
      exact ReadAlone.readBefore ih h hsep
    | none =>
      -- The value is the next argument, which there is, or the front alone would not be read.
      rw [hswitch] at h
      cases more with
      | nil => cases h
      | cons value more =>
        obtain ⟨setting, hsetting, h⟩ := Option.bind_eq_some_iff.mp h
        rw [List.cons_append]
        simp only [hsetting, Option.bind_some]
        exact ReadAlone.readBefore ih' h hsep
  | case5 argument more hdashes hflag ih =>
    rw [itemsOfArguments_of_word hdashes hflag] at h
    rw [List.cons_append, itemsOfArguments_of_word hdashes hflag]
    exact ReadAlone.readBefore ih h hsep

/-! ## Commands between arguments -/

/-- The settings in front of the first word are the leading ones. -/
theorem leadingSettings_append (before : Settings) (name : Text) (items : List Item) :
    leadingSettings (before.map .setting ++ .word name :: items) =
      (before, .word name :: items) := by
  induction before with
  | nil => rfl
  | cons setting before ih => rw [List.map_cons, List.cons_append, leadingSettings, ih]

/-- The first word behind settings is the name of the command. -/
theorem parse_append_cons {front : List Text} {before : Settings}
    (hfront : itemsOfArguments front = some (before.map .setting)) {name : Text}
    (hdashes : name ≠ "--".toList) (hflag : ¬isFlag name) (rest : List Text) :
    parse (front ++ name :: rest) = (itemsOfArguments rest).bind (invocationOf before name) := by
  have hsep : Item.separator ∉ before.map Item.setting := by simp
  rw [parse, readAlone _ _ _ hfront hsep, itemsOfArguments_of_word hdashes hflag, readBefore]
  cases itemsOfArguments rest with
  | none => rfl
  | some items =>
    rw [Option.bind_some, Option.bind_some, Option.map_some, Option.bind_eq_bind, Option.bind_some,
      leadingSettings_append]

namespace Settings

variable {settings : Settings} {flags : List Flag}

/-- Settings are valid if no flag is set twice and every one of them is known. -/
theorem areValid_iff : settings.areValid flags = true ↔
    (settings.map Setting.flag).Nodup ∧ ∀ setting ∈ settings, setting.flag ∈ flags := by
  simp [areValid]

/-- Settings are still valid where more flags are known. -/
theorem areValid_of_subset {more : List Flag} (h : settings.areValid flags) (hsub : flags ⊆ more) :
    settings.areValid more := by
  rw [areValid_iff] at h ⊢
  exact ⟨h.1, fun setting hmem => hsub (h.2 setting hmem)⟩

/-- A flag that is not among the others may be added. -/
theorem areValid_cons (h : settings.areValid flags) {setting : Setting}
    (hflag : setting.flag ∉ flags) : areValid (setting.flag :: flags) (setting :: settings) := by
  rw [areValid_iff] at h ⊢
  rw [List.map_cons, List.nodup_cons, List.forall_mem_cons, List.mem_map]
  refine ⟨⟨?_, h.1⟩, List.mem_cons_self, fun other hmem => List.mem_cons_of_mem _ (h.2 other hmem)⟩
  rintro ⟨other, hmem, heq⟩
  exact hflag (heq ▸ h.2 other hmem)

/-- A flag that is not known is not set. -/
theorem not_mem_of_areValid (h : settings.areValid flags) {setting : Setting}
    (hflag : setting.flag ∉ flags) : setting ∉ settings :=
  fun hmem => hflag ((areValid_iff.mp h).2 setting hmem)

end Settings

/-- Settings in front of a command, and settings and one file behind it, that a command with these
flags understands. -/
structure Around (flags : List Flag) (before : Settings) (items : List Item) (file : Text)
    (dialect : Dialect) : Prop where
  before_valid : before.areValid commonFlags
  after_valid : (settingsOf items).areValid flags
  words : wordsOf items = [file]
  file_ne_nil : file ≠ []
  dialect_eq : chosenDialect (settingsOf items) before = dialect

section

variable {flags : List Flag} {before : Settings} {items : List Item} {file name : Text}
  {dialect : Dialect} {command : Command}

/-- A command of a known name has the settings before and behind it checked, and takes one file. -/
theorem invocationOf_of_commandOfName
    (hcommand : commandOfName name (settingsOf items) = some (command, flags)) :
    invocationOf before name items =
      if before.areValid commonFlags && (settingsOf items).areValid (flags ++ commonFlags) then
        match wordsOf items with
        | [c :: file] => some ⟨command, c :: file, chosenDialect (settingsOf items) before⟩
        | _ => none
      else none := by
  rw [invocationOf, hcommand]
  dsimp only [Option.bind_eq_bind, Option.bind_some]
  cases before.areValid commonFlags && (settingsOf items).areValid (flags ++ commonFlags) <;> rfl

/-- A command of a known name is invoked exactly if the settings around it are valid and one file is
named. -/
theorem invocationOf_eq_some_iff
    (hcommand : commandOfName name (settingsOf items) = some (command, flags)) :
    invocationOf before name items = some ⟨command, file, dialect⟩ ↔
      Around (flags ++ commonFlags) before items file dialect := by
  rw [invocationOf_of_commandOfName hcommand]
  constructor
  · intro h
    split at h
    next hvalid =>
      rw [Bool.and_eq_true] at hvalid
      split at h
      next c file' hwords =>
        cases h
        exact ⟨hvalid.1, hvalid.2, hwords, List.cons_ne_nil c file', rfl⟩
      · cases h
    · cases h
  · rintro ⟨hbefore, hafter, hwords, hfile, rfl⟩
    obtain ⟨c, file, rfl⟩ := List.exists_cons_of_ne_nil hfile
    rw [if_pos (Bool.and_eq_true _ _ ▸ ⟨hbefore, hafter⟩), hwords]

/-- The switch for JSON may be added to settings that every command knows. -/
theorem Around.json (h : Around commonFlags before items file dialect) :
    Around ([.json] ++ commonFlags) before (.setting .json :: items) file dialect where
  before_valid := h.before_valid
  after_valid := Settings.areValid_cons h.after_valid (show Flag.json ∉ commonFlags by decide)
  words := h.words
  file_ne_nil := h.file_ne_nil
  dialect_eq := h.dialect_eq

/-- What every command understands is understood by one that knows further flags. -/
theorem Around.more (h : Around commonFlags before items file dialect) (flags : List Flag) :
    Around (flags ++ commonFlags) before items file dialect where
  before_valid := h.before_valid
  after_valid := Settings.areValid_of_subset h.after_valid (List.subset_append_right _ _)
  words := h.words
  file_ne_nil := h.file_ne_nil
  dialect_eq := h.dialect_eq

/-- Without settings of its own, inspecting has no limit and prints the links too. -/
theorem commandOfName_inspect (h : Around commonFlags before items file dialect) :
    commandOfName "inspect".toList (settingsOf items) =
      some (.inspect none false, [.limit, .metaOnly]) := by
  have hlimit : (settingsOf items).limit? = none := by
    rw [Settings.limit?, List.findSome?_eq_none_iff]
    intro setting hmem
    cases setting with
    | limit count =>
      exact absurd hmem (Settings.not_mem_of_areValid h.after_valid
        (show Flag.limit ∉ commonFlags by decide))
    | _ => rfl
  have hmeta : (settingsOf items).contains .metaOnly = false := by
    rw [List.contains_eq_mem, decide_eq_false_iff_not]
    exact Settings.not_mem_of_areValid h.after_valid (show Flag.metaOnly ∉ commonFlags by decide)
  rw [← hlimit, ← hmeta]
  rfl

/-- Without settings of its own, counting reports a table. -/
theorem commandOfName_stats (h : Around commonFlags before items file dialect) :
    commandOfName "stats".toList (settingsOf items) = some (.stats false, [.json]) := by
  have hjson : (settingsOf items).contains .json = false := by
    rw [List.contains_eq_mem, decide_eq_false_iff_not]
    exact Settings.not_mem_of_areValid h.after_valid (show Flag.json ∉ commonFlags by decide)
  rw [← hjson]
  rfl

end

/-- Arguments that are understood around the command that validates are understood around all other
commands, which then read the same file in the same dialect. Behind the command that counts, the
switch for JSON may come first. -/
theorem parse_of_parse_validate {front rest : List Text} {before : Settings} {file : Text}
    {dialect : Dialect} (hfront : itemsOfArguments front = some (before.map .setting))
    (h : parse (front ++ "validate".toList :: rest) = some ⟨.validate, file, dialect⟩) :
    parse (front ++ "inspect".toList :: rest) = some ⟨.inspect none false, file, dialect⟩ ∧
      parse (front ++ "stats".toList :: rest) = some ⟨.stats false, file, dialect⟩ ∧
      parse (front ++ "stats".toList :: "--json".toList :: rest) =
        some ⟨.stats true, file, dialect⟩ ∧
      parse (front ++ "shortcodes".toList :: rest) = some ⟨.shortcodes, file, dialect⟩ := by
  rw [parse_append_cons hfront (by decide) (by decide)] at h
  obtain ⟨items, hitems, hvalidate⟩ := Option.bind_eq_some_iff.mp h
  have hnone : commandOfName "validate".toList (settingsOf items) = some (.validate, []) := rfl
  have haround : Around commonFlags before items file dialect :=
    (invocationOf_eq_some_iff hnone).mp hvalidate
  have hswitch : itemsOfArguments ("--json".toList :: rest) = some (.setting .json :: items) := by
    have hname : flagOfName "--json".toList = some .json := by decide
    rw [itemsOfArguments_of_flag (by decide) (by decide) (by decide), hname, Option.bind_some]
    simp only [Flag.switch?, readBefore, hitems, Option.bind_some]
  have hjson : commandOfName "stats".toList (settingsOf (.setting .json :: items)) =
      some (.stats true, [.json]) := rfl
  have hshortcodes : commandOfName "shortcodes".toList (settingsOf items) =
      some (.shortcodes, []) := rfl
  refine ⟨?_, ?_, ?_, ?_⟩
  · rw [parse_append_cons hfront (by decide) (by decide), hitems, Option.bind_some,
      invocationOf_eq_some_iff (commandOfName_inspect haround)]
    exact haround.more _
  · rw [parse_append_cons hfront (by decide) (by decide), hitems, Option.bind_some,
      invocationOf_eq_some_iff (commandOfName_stats haround)]
    exact haround.more _
  · rw [parse_append_cons hfront (by decide) (by decide), hswitch, Option.bind_some,
      invocationOf_eq_some_iff hjson]
    exact haround.json
  · rw [parse_append_cons hfront (by decide) (by decide), hitems, Option.bind_some,
      invocationOf_eq_some_iff hshortcodes]
    exact haround

end CommandLine

end LinkDump
