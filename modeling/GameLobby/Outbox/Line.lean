import GameLobby.Outbox.Writer

/-!
# Lines

A line is an outbox together with the writer that empties it into a connection. Pushing and writing
are separate moves: between two runs of the writer the outbox fills up.
-/

namespace GameLobby

/-- An outbox and its writer. -/
structure Line where
  outbox : Outbox
  writer : Writer
  /-- Whether nobody can push to the outbox any more. -/
  released : Bool
  deriving DecidableEq, Repr

namespace Line

/-- The line of a new connection. -/
def new? (conn : ConnectionId) (capacity : Nat) : Option Line :=
  (Outbox.new? conn capacity).map fun o => ⟨o, .start .flowing, false⟩

/-- A frame pushed to the outbox. -/
def push (l : Line) (f : OutboundFrame) : Except PushError Unit × Line :=
  ((l.outbox.push f).1, { l with outbox := (l.outbox.push f).2 })

/-- The writer's work until there is no more it can do. -/
def write (checksum : Checksum) (l : Line) : Line :=
  let (outbox, writer) := l.writer.run checksum l.released l.outbox
  { l with outbox, writer }

/-- The line after the last one who could push is gone. -/
def release (l : Line) : Line :=
  { l with released := true }

/-- The connection of a line changed. -/
def onWriter (f : Writer → Writer) (l : Line) : Line :=
  { l with writer := f l.writer }

/-- The peer collects what was written. -/
def collect (l : Line) : Bytes × Line :=
  (l.writer.collect.1, { l with writer := l.writer.collect.2 })

end Line

end GameLobby
