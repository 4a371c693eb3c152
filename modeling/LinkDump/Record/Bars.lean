import LinkDump.Error
import LinkDump.Link
import LinkDump.Text.Line

/-! # Links on one line
The two rules by which a single line is a link: up to three fields between bars, or everything after
the first bar as the target. -/

namespace LinkDump

namespace Link

/-- The link of a line, without its line break, whose fields stand between bars: a source alone, a
source and a target, or a source, a note and a target. -/
def ofBars (line : Text) : Except LineError Link :=
  match line.splitOn '|' with
  | [source] => .ok { source }
  | [source, target] => .ok { source, target }
  | [source, note, target] => .ok { source, note, target }
  | _ => .error (.tooManyBars line)

/-- The link of a line, with its line break, whose first bar ends the source. -/
def ofFirstBar (raw : Text) : Except LineError Link :=
  match raw.dropWhile (· != '|') with
  | [] => .error (.missingBar (dropLineBreak raw))
  | _ :: target => .ok { source := raw.takeWhile (· != '|'), target := dropLineBreak target }

end Link

end LinkDump
