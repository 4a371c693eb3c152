import LinkDump.Text.Utf8

/-! # Links
One record of a dump: a source, a target, and a note on the link (its annotation) that may be empty.
-/

namespace LinkDump

/-- A link from a source to a target. -/
structure Link where
  source : Text := []
  target : Text := []
  note : Text := []
  deriving Repr, DecidableEq

namespace Link

/-- Whether the note says anything. -/
def hasNote (link : Link) : Bool := !link.note.isEmpty

/-- Whether the target runs over more than one line. -/
def isMultiline (link : Link) : Bool := link.target.contains '\n'

/-- The link with its fields between bars. An empty note is left out. -/
def render (link : Link) : Text :=
  if link.hasNote then link.source ++ '|' :: link.note ++ '|' :: link.target
  else link.source ++ '|' :: link.target

/-- Without a note there is one bar. -/
@[simp] theorem render_of_note_nil (source target : Text) :
    (Link.mk source target []).render = source ++ '|' :: target := rfl

/-- With a note there are two bars, one on each side of it. -/
@[simp] theorem render_of_note_cons (source target : Text) (c : Char) (note : Text) :
    (Link.mk source target (c :: note)).render =
      source ++ '|' :: (c :: note) ++ '|' :: target := rfl

end Link

end LinkDump
