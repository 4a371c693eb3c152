import LinkDump.Dialect
import LinkDump.Report.Sources

/-! # Statistics
How many links a dump holds and of what shape, counted in one pass that remembers only the sources
it has met. The counts are reported as a table or as a JSON object. -/

namespace LinkDump

/-- The counts of a dump. -/
structure Stats where
  metaFields : Nat := 0
  links : Nat := 0
  annotated : Nat := 0
  emptyTargets : Nat := 0
  multilineTargets : Nat := 0
  distinctSources : Nat := 0
  deriving Repr, DecidableEq

namespace Stats

/-- Count one more link, but not its source. -/
def add (stats : Stats) (link : Link) : Stats :=
  { stats with
    links := stats.links + 1
    annotated := stats.annotated + link.hasNote.toNat
    emptyTargets := stats.emptyTargets + link.target.isEmpty.toNat
    multilineTargets := stats.multilineTargets + link.isMultiline.toNat }

/-- Count the items of a sequence on top of what has been counted, up to the first error. The
sources that have been met are in `seen`. -/
def addItems {ε : Type} (stats : Stats) (seen : Std.HashSet Text) :
    List (Except ε Link) → Except ε Stats
  | [] => .ok { stats with distinctSources := seen.size }
  | .error e :: _ => .error e
  | .ok link :: items => addItems (stats.add link) (seen.insert link.source) items

/-- The counts of a header of `metaFields` fields and the items after it. -/
def ofItems {ε : Type} (metaFields : Nat) (items : List (Except ε Link)) : Except ε Stats :=
  addItems { metaFields } ∅ items

/-! ## Reports -/

/-- The names of the counts in a JSON object, and their values. -/
def entries (stats : Stats) : List (Text × Nat) :=
  [("meta_fields".toList, stats.metaFields), ("links".toList, stats.links),
    ("annotated".toList, stats.annotated), ("empty_targets".toList, stats.emptyTargets),
    ("multiline_targets".toList, stats.multilineTargets),
    ("distinct_sources".toList, stats.distinctSources)]

/-- The counts as lines of a JSON object, one entry a line. -/
def jsonLines (stats : Stats) : List Text :=
  let entry : Text × Nat → Text := fun (name, count) =>
    "  \"".toList ++ name ++ "\": ".toList ++ Nat.toDigits 10 count
  [['\x7b']] ++ (stats.entries.dropLast.map fun e => entry e ++ [',']) ++
    (stats.entries.getLast?.toList.map entry) ++ [['\x7d']]

/-- A row of a table: a label in a column of 20, a count at the right of a column of 10. -/
def row (label : String) (count : Nat) : Text :=
  label.toList.rightpad 20 ' ' ++ (Nat.toDigits 10 count).leftpad 10 ' '

/-- How a dialect is named in a report. -/
def dialectLabel : Dialect → Text
  | .rfc => "rfc".toList
  | .variableWidth => "urlteam (variable width)".toList
  | .fixedWidth width =>
    "urlteam (shortcode width ".toList ++ Nat.toDigits 10 width ++ [')']

/-- The counts as lines of a table, under the name of the file and the dialect. -/
def tableLines (stats : Stats) (file : Text) (dialect : Dialect) : List Text :=
  ["File:    ".toList ++ file,
    "Dialect: ".toList ++ dialectLabel dialect,
    "Meta:    ".toList ++ Nat.toDigits 10 stats.metaFields ++ " fields".toList,
    [],
    row "Links" stats.links,
    List.replicate 30 '─',
    row "with annotation" stats.annotated,
    row "empty target" stats.emptyTargets,
    row "multi-line target" stats.multilineTargets,
    row "distinct sources" stats.distinctSources]

end Stats

end LinkDump
