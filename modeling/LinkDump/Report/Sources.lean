import LinkDump.Link
import LinkDump.Report.Items
import Std.Data.HashSet

/-! # Distinct sources
The sources of a dump, each once and in a fixed order: shorter ones first, and byte by byte among
those of one size. Repetitions are left out as the links come, and then the sources are sorted. The
listing therefore depends only on which sources occur. -/

namespace LinkDump

/-- Texts are hashed by the code points of their characters. -/
instance : Hashable Text := ⟨fun text => hash (text.map Char.val)⟩

/-- The order of sources in a listing. -/
def compareSources (a b : Text) : Ordering :=
  (compare (Utf8.size a) (Utf8.size b)).then (compare (Utf8.encode a) (Utf8.encode b))

/-- Whether a source may stand before another in a listing. -/
def sourceLE (a b : Text) : Bool := (compareSources a b).isLE

/-- The sources of some links, each where it is met for the first time. Those in `seen` have been
met before. -/
def newSources (seen : Std.HashSet Text) : List Link → List Text
  | [] => []
  | link :: links =>
    if link.source ∈ seen then newSources seen links
    else link.source :: newSources (seen.insert link.source) links

/-- The sources that occur among some links, in order. -/
def distinctSources (links : List Link) : List Text := (newSources ∅ links).mergeSort sourceLE

/-- The sources that occur in a sequence of items, in order, or the first error. -/
def distinctSourcesOfItems {ε : Type} (items : List (Except ε Link)) : Except ε (List Text) :=
  match cutAtError items with
  | (links, none) => .ok (distinctSources links)
  | (_, some e) => .error e

end LinkDump
