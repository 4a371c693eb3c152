import LinkDump.CommandLine.Run

/-! # The program
`beacon` reads a dump from a file or from standard input and writes a report. This module talks to
the outside and leaves all decisions to `LinkDump.CommandLine`. -/

namespace LinkDump

/-- Why a file could not be opened or read. -/
def reasonOfError : IO.Error → Text
  | .noFileOrDirectory _ code details
  | .inappropriateType _ code details
  | .invalidArgument _ code details
  | .permissionDenied _ code details
  | .resourceExhausted _ code details
  | .noSuchThing _ code details => refusal details.toList code.toNat
  | e => e.toString.toList

/-- Read an open file whole. A file that can be opened but not read is a source that fails. -/
def readHandle (handle : IO.FS.Handle) : IO Source := do
  try
    return .ofBytes (← handle.readBinToEnd).toList
  catch e =>
    return [.failure (reasonOfError e)]

/-- Open standard input or a file, and read it whole. -/
def openFile (path : Text) : IO (Except Text Source) := do
  if Place.isInput path then
    return .ok (.ofBytes (← (← IO.getStdin).readBinToEnd).toList)
  try
    return .ok (← readHandle (← IO.FS.Handle.mk (String.ofList path) .read))
  catch e =>
    return .error (reasonOfError e)

/-- Write what a run leaves behind, and give its code. -/
def finishWith (outcome : CommandLine.Outcome) : IO UInt32 := do
  IO.print (String.ofList outcome.stdout)
  IO.eprint (String.ofList outcome.stderr)
  return outcome.exit.toUInt32

end LinkDump

/-- Run the command that the arguments name. -/
def main (arguments : List String) : IO UInt32 := do
  match LinkDump.CommandLine.parse (arguments.map String.toList) with
  | none => LinkDump.finishWith .usage
  | some invocation =>
    LinkDump.finishWith (invocation.run (← LinkDump.openFile invocation.file))
