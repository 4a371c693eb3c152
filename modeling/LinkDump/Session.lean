import LinkDump.Reader
import LinkDump.StreamDecoder

/-! # Sessions
A session is any sequence of calls on one reader, or on one stream decoder, made one after another
whatever they give. Its transcript has an entry for each call: the reply, an error included, and the
number of physical lines read so far. Calls may come in any order, be repeated, and go on after the
end or after an error. -/

namespace LinkDump

variable {σ : Type}

/-- What may be called. -/
inductive Call
  /-- For the meta fields. -/
  | fields
  /-- For the next link. -/
  | link
  /-- For the next item of the sequence of links. -/
  | item
  deriving Repr, DecidableEq

/-- What a call gives. -/
inductive Reply
  | fields (fields : List MetaField)
  | link (link : Link)
  /-- There is no further link. -/
  | nothing
  | failed (e : DecodeError)
  deriving Repr, DecidableEq

namespace Reply

/-- The reply to a call for the meta fields, and the state after it. -/
def ofFields : EStateM.Result DecodeError σ (List MetaField) → Reply × σ
  | .ok fs state => (fields fs, state)
  | .error e state => (failed e, state)

/-- The reply to a call for a link, and the state after it. -/
def ofLink : EStateM.Result DecodeError σ (Option Link) → Reply × σ
  | .ok none state => (nothing, state)
  | .ok (some l) state => (link l, state)
  | .error e state => (failed e, state)

/-- The reply to a call for an item. -/
def ofItem : Option (Except DecodeError Link) → Reply
  | none => nothing
  | some (.ok l) => link l
  | some (.error e) => failed e

end Reply

/-- A reply, and the number of physical lines read once it was given. -/
structure Entry where
  reply : Reply
  line : Nat
  deriving Repr, DecidableEq

/-- Make calls one after another: what they gave, and the state after the last one. -/
def transcript (call : Call → σ → Reply × σ) (line : σ → Nat) :
    List Call → σ → List Entry × σ
  | [], state => ([], state)
  | c :: calls, state =>
    let (reply, state) := call c state
    let (entries, last) := transcript call line calls state
    (⟨reply, line state⟩ :: entries, last)

@[simp] theorem transcript_nil (call : Call → σ → Reply × σ) (line : σ → Nat) (state : σ) :
    transcript call line [] state = ([], state) := rfl

/-- A session is its first call, and the session of the other calls from the state after it. -/
@[simp] theorem transcript_cons (call : Call → σ → Reply × σ) (line : σ → Nat) (c : Call)
    (calls : List Call) (state : σ) :
    transcript call line (c :: calls) state =
      (⟨(call c state).1, line (call c state).2⟩ :: (transcript call line calls (call c state).2).1,
        (transcript call line calls (call c state).2).2) := rfl

/-- Make one call on a reader. -/
def Reader.call (c : Call) (reader : Reader) : Reply × Reader :=
  match c with
  | .fields => Reply.ofFields reader.readFields
  | .link => Reply.ofLink reader.readLink
  | .item => (Reply.ofItem reader.next.1, reader.next.2)

/-- Make calls on a reader. -/
def Reader.transcript (calls : List Call) (reader : Reader) : List Entry × Reader :=
  LinkDump.transcript Reader.call Reader.line calls reader

/-- Make one call on a stream decoder. -/
def StreamDecoder.call (c : Call) (decoder : StreamDecoder) : Reply × StreamDecoder :=
  match c with
  | .fields => Reply.ofFields decoder.readFields
  | .link => Reply.ofLink decoder.readLink
  | .item => (Reply.ofItem decoder.next.1, decoder.next.2)

/-- Make calls on a stream decoder. -/
def StreamDecoder.transcript (calls : List Call) (decoder : StreamDecoder) :
    List Entry × StreamDecoder :=
  LinkDump.transcript StreamDecoder.call StreamDecoder.line calls decoder

end LinkDump
