import LinkDump.Dialect
import LinkDump.Text.Utf8

/-! # Arguments
The command line is `beacon [settings] command [settings] file`. A setting is a switch, or a flag
with a value that follows it or stands behind an equals sign. The settings that every command knows
may stand before the command or after it, at most once in each place; after it counts. Two dashes
end the settings of a command, so that its file may start with a dash.

Being verbose only means to log more. The log is left out, so that setting is read and checked like
the others, and then says nothing more. -/

namespace LinkDump

namespace CommandLine

/-! ## Settings -/

/-- The flags. -/
inductive Flag
  /-- To log what is done, which changes neither what is printed nor the code of the run. -/
  | verbose
  | dialect
  | codeWidth
  | limit
  | metaOnly
  | json
  deriving Repr, DecidableEq

/-- The values of the dialect flag. -/
inductive DialectName
  | rfc
  | urlteam
  deriving Repr, DecidableEq

/-- A flag together with its value. -/
inductive Setting
  | verbose
  | dialect (name : DialectName)
  | codeWidth (width : Nat)
  | limit (count : Nat)
  | metaOnly
  | json
  deriving Repr, DecidableEq

/-- The flag of a setting. -/
def Setting.flag : Setting → Flag
  | verbose => .verbose
  | dialect _ => .dialect
  | codeWidth _ => .codeWidth
  | limit _ => .limit
  | metaOnly => .metaOnly
  | json => .json

/-- The flag of a name. -/
def flagOfName (name : Text) : Option Flag :=
  if name = "-v".toList ∨ name = "--verbose".toList then some .verbose
  else if name = "--dialect".toList then some .dialect
  else if name = "--shortcode-len".toList then some .codeWidth
  else if name = "--limit".toList then some .limit
  else if name = "--meta-only".toList then some .metaOnly
  else if name = "--json".toList then some .json
  else none

/-- The largest number that an argument may give. -/
def maxNumber : Nat := UInt64.size - 1

/-- The value of a run of decimal digits. -/
def digitsValue (digits : Text) : Nat := digits.foldl (fun n c => 10 * n + (c.toNat - '0'.toNat)) 0

/-- The number of an argument: decimal digits, with a plus sign before them or none. -/
def numberOfText (text : Text) : Option Nat :=
  let digits := match text with
    | '+' :: digits => digits
    | digits => digits
  if digits.isEmpty || !digits.all Char.isDigit then none
  else if digitsValue digits ≤ maxNumber then some (digitsValue digits)
  else none

/-- The dialect that a name stands for. -/
def dialectOfText (text : Text) : Option DialectName :=
  if text = "rfc".toList then some .rfc
  else if text = "urlteam".toList then some .urlteam
  else none

/-- The setting of a switch, which takes no value. -/
def Flag.switch? : Flag → Option Setting
  | verbose => some .verbose
  | metaOnly => some .metaOnly
  | json => some .json
  | _ => none

/-- The setting of a flag and the text of its value. -/
def Flag.withValue? (flag : Flag) (value : Text) : Option Setting :=
  match flag with
  | dialect => (dialectOfText value).map .dialect
  | codeWidth => (numberOfText value).map .codeWidth
  | limit => (numberOfText value).map .limit
  | _ => none

/-! ## Words -/

/-- What an argument, or a flag and its value, means. -/
inductive Item
  | setting (setting : Setting)
  /-- A name: of a command or of a file. -/
  | word (text : Text)
  /-- Two dashes. -/
  | separator
  deriving Repr, DecidableEq

/-- Whether an argument is a flag: it starts with a dash, and is more than that. -/
def isFlag : Text → Bool
  | '-' :: _ :: _ => true
  | _ => false

/-- Read arguments one by one. After two dashes all are words. -/
def itemsOfArguments : List Text → Option (List Item)
  | [] => some []
  | argument :: rest =>
    if argument = "--".toList then some (.separator :: rest.map .word)
    else if isFlag argument then
      match argument.dropWhile (· != '=') with
      | _ :: value => do
        let flag ← flagOfName (argument.takeWhile (· != '='))
        let setting ← flag.withValue? value
        let items ← itemsOfArguments rest
        some (.setting setting :: items)
      | [] => do
        let flag ← flagOfName argument
        match flag.switch? with
        | some setting =>
          let items ← itemsOfArguments rest
          some (.setting setting :: items)
        | none =>
          match rest with
          | [] => none
          | value :: rest =>
            let setting ← flag.withValue? value
            let items ← itemsOfArguments rest
            some (.setting setting :: items)
    else do
      let items ← itemsOfArguments rest
      some (.word argument :: items)

/-! ## Invocations -/

/-- What is to be done with a dump. -/
inductive Command
  /-- Print the meta fields and the links, at most `limit` of them, or the meta fields alone. -/
  | inspect (limit : Option Nat) (metaOnly : Bool)
  /-- Say whether the dump can be decoded. -/
  | validate
  /-- Print counts, as a table or as JSON. -/
  | stats (json : Bool)
  /-- Print the distinct sources. -/
  | shortcodes
  deriving Repr, DecidableEq

/-- A command, the file that it reads, and the dialect of that file. -/
structure Invocation where
  command : Command
  file : Text
  dialect : Dialect
  deriving Repr, DecidableEq

/-- Settings of one place on the command line. -/
abbrev Settings := List Setting

namespace Settings

/-- Each flag occurs at most once, and all of them are allowed. -/
def areValid (allowed : List Flag) (settings : Settings) : Bool :=
  decide ((settings.map Setting.flag).Nodup) && settings.all fun setting => setting.flag ∈ allowed

/-- The dialect that is named, if one is. -/
def dialect? (settings : Settings) : Option DialectName :=
  settings.findSome? fun | .dialect name => some name | _ => none

/-- The width of the sources that is given, if one is. -/
def codeWidth? (settings : Settings) : Option Nat :=
  settings.findSome? fun | .codeWidth width => some width | _ => none

/-- The number of links that is asked for, if one is. -/
def limit? (settings : Settings) : Option Nat :=
  settings.findSome? fun | .limit count => some count | _ => none

end Settings

/-- The flags that every command knows. -/
def commonFlags : List Flag := [.verbose, .dialect, .codeWidth]

/-- The dialect that settings after and before the command choose. -/
def chosenDialect (after before : Settings) : Dialect :=
  match after.dialect?.or before.dialect? with
  | some .urlteam => .ofCodeWidth ((after.codeWidth?.or before.codeWidth?).getD 0)
  | _ => .rfc

/-- The command of a name with its own settings, and the flags that it knows besides the common
ones. -/
def commandOfName (name : Text) (settings : Settings) : Option (Command × List Flag) :=
  if name = "inspect".toList then
    some (.inspect settings.limit? (settings.contains .metaOnly), [.limit, .metaOnly])
  else if name = "validate".toList then some (.validate, [])
  else if name = "stats".toList then some (.stats (settings.contains .json), [.json])
  else if name = "shortcodes".toList then some (.shortcodes, [])
  else none

/-- The settings of a list of items. -/
def settingsOf (items : List Item) : Settings :=
  items.filterMap fun | .setting setting => some setting | _ => none

/-- The words of a list of items. -/
def wordsOf (items : List Item) : List Text :=
  items.filterMap fun | .word text => some text | _ => none

/-- Cut items at the first that is no setting. -/
def leadingSettings : List Item → Settings × List Item
  | .setting setting :: items =>
    (setting :: (leadingSettings items).1, (leadingSettings items).2)
  | items => ([], items)

/-- The invocation of a command, from the settings before it and the items behind it. -/
def invocationOf (before : Settings) (name : Text) (items : List Item) : Option Invocation := do
  let after := settingsOf items
  let (command, flags) ← commandOfName name after
  guard (before.areValid commonFlags && after.areValid (flags ++ commonFlags))
  match wordsOf items with
  | [c :: file] => some { command, file := c :: file, dialect := chosenDialect after before }
  | _ => none

/-- The invocation that arguments stand for, if they stand for one. -/
def parse (arguments : List Text) : Option Invocation := do
  let items ← itemsOfArguments arguments
  match leadingSettings items with
  | (before, .word name :: items) => invocationOf before name items
  | _ => none

end CommandLine

end LinkDump
