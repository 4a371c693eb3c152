import LinkDump.CommandLine.Arguments
import LinkDump.CommandLine.Place
import LinkDump.Reader
import LinkDump.Report.Listing
import LinkDump.Report.Sources
import LinkDump.Report.Stats

/-! # Running a command
What each command prints, and the code it ends with: zero after success, one after a failure, two
for arguments that stand for no command. A failure is told on the error output in one line, which
says what was being done and why it failed. What was printed before a failure stays.

The program also keeps a log on the error output, of bytes that are not UTF-8 and, if it is asked to
be verbose, of its progress. The log carries times, and it is left out here: nothing that is printed
and no code depends on it, and all of it comes before the account of a failure. -/

namespace LinkDump

namespace CommandLine

/-- What a run of the program leaves behind: the code it ends with, what it printed, and the account
that it gives of a failure, or of arguments that are not understood. The log is not part of it. -/
structure Outcome where
  exit : Nat
  stdout : Text := []
  account : Text := []
  deriving Repr, DecidableEq

namespace Outcome

/-- All of the error output of a run that logs so much: the account is the last thing written. -/
def errorOutput (outcome : Outcome) (logged : Text) : Text := logged ++ outcome.account

/-- The error output of a run that logs nothing. -/
def stderr (outcome : Outcome) : Text := outcome.errorOutput []

/-- A success, with the lines it printed. -/
def success (lines : List Text) : Outcome := { exit := 0, stdout := unlines lines }

/-- A failure, with the lines it printed before and its account. -/
def failure (lines : List Text) (account : Text) : Outcome :=
  { exit := 1, stdout := unlines lines, account := unlines ["error: ".toList ++ account] }

/-- How the program is used. -/
def usage : Outcome :=
  { exit := 2
    account := unlines [
      "error: these arguments are not understood".toList,
      [],
      "Usage: beacon [SETTINGS] <inspect|validate|stats|shortcodes> [SETTINGS] <FILE>".toList] }

end Outcome

/-- The account of a file that cannot be opened. -/
def cannotOpen (file reason : Text) : Text :=
  "cannot open ".toList ++ file ++ ": ".toList ++ reason

/-- The account of a header that cannot be read. -/
def headerFailed (file : Text) (e : DecodeError) : Text :=
  "failed to read header of ".toList ++ file ++ ": ".toList ++ e.message

/-- The account of a link that cannot be read. -/
def decodingFailed (file : Text) (e : DecodeError) : Text :=
  "failed to decode ".toList ++ file ++ ": ".toList ++ e.message

/-- The items that a reader still gives, at most `limit` of them if there is a limit. -/
def itemsOf (reader : Reader) : Option Nat → List (Except DecodeError Link)
  | some limit => (reader.take limit).1
  | none => reader.finish.items

/-- Print the meta fields, and the links unless only the fields are wanted. -/
def inspect (limit : Option Nat) (metaOnly : Bool) (file : Text) (reader : Reader) : Outcome :=
  match reader.readFields with
  | .error e _ => .failure [] (headerFailed file e)
  | .ok fields reader =>
    let header := fields.map fun field => oneLine field.render
    if metaOnly then .success header
    else
      let (links, failed) := cutAtError (itemsOf reader limit)
      let lines := header ++ links.map fun link => oneLine link.render
      match failed with
      | none => .success lines
      | some e => .failure lines (decodingFailed file e)

/-- Say how much could be decoded, or why not all. -/
def validate (reader : Reader) : Outcome :=
  let failed (lines : List Text) (e : DecodeError) : Outcome :=
    .failure (lines ++ ["✗ Error: ".toList ++ e.message]) "validation failed".toList
  match reader.readFields with
  | .error e _ => failed [] e
  | .ok fields reader =>
    let header := "✓ Header: ".toList ++ counted fields.length "meta field"
    let decoded := reader.finish
    match decoded.failure with
    | some e => failed [header] e
    | none =>
      .success [
        header,
        "✓ Links: ".toList ++ counted decoded.links.length "link" ++ " decoded".toList,
        "✓ Lines: ".toList ++ Nat.toDigits 10 decoded.line ++ " lines read".toList]

/-- Print the counts of a dump. -/
def stats (json : Bool) (file : Text) (dialect : Dialect) (reader : Reader) : Outcome :=
  match reader.readFields with
  | .error e _ => .failure [] (headerFailed file e)
  | .ok fields reader =>
    match Stats.ofItems fields.length reader.finish.items with
    | .error e => .failure [] (decodingFailed file e)
    | .ok stats => .success (if json then stats.jsonLines else stats.tableLines file dialect)

/-- Print the distinct sources of a dump. -/
def shortcodes (file : Text) (reader : Reader) : Outcome :=
  match distinctSourcesOfItems reader.finish.items with
  | .error e => .failure [] (decodingFailed file e)
  | .ok sources => .success sources

/-- Run a command on its file, once that is open. -/
def Invocation.run (invocation : Invocation) (opened : Except Text Source) : Outcome :=
  match opened with
  | .error reason => .failure [] (cannotOpen invocation.file reason)
  | .ok source =>
    let reader := Reader.ofSource invocation.dialect source
    match invocation.command with
    | .inspect limit metaOnly => inspect limit metaOnly invocation.file reader
    | .validate => validate reader
    | .stats json => stats json invocation.file invocation.dialect reader
    | .shortcodes => shortcodes invocation.file reader

/-- Run the program in a place. -/
def run (arguments : List Text) (place : Place) : Outcome :=
  match parse arguments with
  | none => .usage
  | some invocation => invocation.run (place.openFile invocation.file)

end CommandLine

end LinkDump
