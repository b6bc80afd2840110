import GameLobby.Outbox.Line

/-!
# Mailboxes

A mailbox is an outbox in the hands of its two owners: the one who pushes, until they let go of it,
and the one who takes frames out, who may hand that over to a writer. `Mailbox.step` is one action
of either, after which the writer, if there is one, works until it has nothing more to do.
-/

namespace GameLobby

/-- Who takes frames out of a mailbox. -/
inductive Taker where
  /-- The owner of the receiving end. -/
  | owner
  /-- A writer. -/
  | writer
  | nobody
  deriving DecidableEq, Repr

/-- An outbox and whoever takes frames out of it. -/
structure Mailbox where
  line : Line
  taker : Taker
  deriving DecidableEq, Repr

namespace Mailbox

/-- What the owners of a mailbox can do. -/
inductive Action where
  | push (f : OutboundFrame)
  /-- Take the next frame, if there is one. -/
  | tryReceive
  /-- Take the next frame, waiting for it if there is none. -/
  | receive
  | kick
  /-- Ask whether a kick is stored, and take it. -/
  | takeKick
  | dropReceiver
  | dropOutbox
  /-- Ask whether nobody takes frames out any more. -/
  | isClosed
  /-- Ask for the number of the connection. -/
  | conn
  | startWriter
  | stall
  | resume
  | sever
  /-- Collect what the writer has written. -/
  | collect
  deriving DecidableEq, Repr

/-- What an action answers. -/
inductive Answer where
  | done
  /-- What was asked of is gone, or there is nothing to take. -/
  | nothing
  | refused (e : PushError)
  | frame (f : OutboundFrame)
  /-- It would have to wait. -/
  | waiting
  | flag (b : Bool)
  | conn (id : ConnectionId)
  | written (b : Bytes) (shut : Bool)
  deriving DecidableEq, Repr

/-- A mailbox without a writer. -/
def new? (conn : ConnectionId) (capacity : Nat) : Option Mailbox :=
  (Line.new? conn capacity).map fun l => ⟨l, .owner⟩

/-- The outbox of a mailbox. -/
def outbox (m : Mailbox) : Outbox := m.line.outbox

/-- The mailbox with another outbox. -/
def withOutbox (m : Mailbox) (o : Outbox) : Mailbox :=
  { m with line := { m.line with outbox := o } }

/-- The mailbox after a change of the connection behind the writer. -/
def onWriter (m : Mailbox) (f : Writer → Writer) : Mailbox :=
  { m with line := m.line.onWriter f }

/-- What an action answers and does, apart from the writer's work. -/
def act (m : Mailbox) : Action → Answer × Mailbox
  | .push f =>
    if m.line.released then (.nothing, m)
    else
      match m.outbox.push f with
      | (.ok (), o) => (.done, m.withOutbox o)
      | (.error e, o) => (.refused e, m.withOutbox o)
  | .tryReceive =>
    if m.taker = .owner then
      match m.outbox.pop with
      | (some f, o) => (.frame f, m.withOutbox o)
      | (none, _) => (.nothing, m)
    else (.nothing, m)
  | .receive =>
    if m.taker = .owner then
      match m.outbox.pop with
      | (some f, o) => (.frame f, m.withOutbox o)
      | (none, _) => (if m.line.released then .nothing else .waiting, m)
    else (.nothing, m)
  | .kick => (.done, if m.line.released then m else m.withOutbox m.outbox.kick)
  | .takeKick =>
    if m.line.released then (.nothing, m)
    else (.flag m.outbox.takeKick.1, m.withOutbox m.outbox.takeKick.2)
  | .dropReceiver =>
    (.done, if m.taker = .owner then { m.withOutbox m.outbox.close with taker := .nobody } else m)
  | .dropOutbox => (.done, { m with line := m.line.release })
  | .isClosed => (if m.line.released then .nothing else .flag m.outbox.closed, m)
  | .conn => (if m.line.released then .nothing else .conn m.outbox.conn, m)
  | .startWriter => (.done, if m.taker = .owner then { m with taker := .writer } else m)
  | .stall => (.done, m.onWriter .stall)
  | .resume => (.done, m.onWriter .resume)
  | .sever => (.done, m.onWriter .sever)
  | .collect =>
    (.written m.line.collect.1 m.line.writer.shut, { m with line := m.line.collect.2 })

/-- The writer's work, if there is a writer. -/
def settle (checksum : Checksum) (m : Mailbox) : Mailbox :=
  if m.taker = .writer then { m with line := m.line.write checksum } else m

/-- One action, and then the writer's work. -/
def step (checksum : Checksum) (m : Mailbox) (a : Action) : Answer × Mailbox :=
  ((m.act a).1, (m.act a).2.settle checksum)

/-- The answers to a list of actions, and the mailbox after them. -/
def run (checksum : Checksum) (m : Mailbox) : List Action → List Answer × Mailbox
  | [] => ([], m)
  | a :: rest =>
    let (answer, m) := m.step checksum a
    let (answers, m) := run checksum m rest
    (answer :: answers, m)

end Mailbox

end GameLobby
