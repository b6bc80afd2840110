import GameLobby.Outbox.Line
import GameLobby.Session.Basic

/-!
# The lobby

Sessions, their lines and the registry together. Whatever has work to do waits on an agenda
(`Job`), and the lobby does one job after the other, in the order in which they came up, until none
is left:

* a session that got something, or was kicked, is attended to: it handles every complete frame it
  has, in order, and each message it offers goes to the outbox of its recipient; then it ends, if
  its client has finished or it was kicked;
* a writer whose outbox got something empties it into the connection;
* a session that has ended departs, which offers news to the others.

So a push finds a queue full when the capacity is used up since the writer last worked, be it by one
session or by several that were attended to or departed in between, or when the connection accepts
nothing. A session that is kicked in the middle of its frames still handles the rest of them, and it
departs before a session it kicked, which has yet to be attended to.
-/

namespace GameLobby

/-- A session that has not ended. -/
structure OpenSession where
  visitor : Visitor
  /-- Whether the handshake is done. -/
  greeted : Bool
  /-- What the client has sent and the session has not read. -/
  input : Stream
  deriving DecidableEq, Repr

/-- The end of a session: the error, if it is not a regular end. -/
structure SessionEnd where
  conn : ConnectionId
  error : Option SessionError
  deriving DecidableEq, Repr

/-- Work that waits for its turn. -/
inductive Job where
  /-- A session looks at what its client has sent and whether it was kicked. -/
  | attend (conn : ConnectionId)
  /-- A writer looks at its outbox. -/
  | write (conn : ConnectionId)
  /-- A session that has ended departs. -/
  | depart (conn : ConnectionId)
  deriving DecidableEq, Repr

/-- The state of a lobby. -/
structure Lobby where
  registry : Registry
  sessions : Table ConnectionId OpenSession
  lines : Table ConnectionId Line
  /-- The jobs that wait, the next one first. No job waits twice. -/
  agenda : List Job
  /-- The ends of sessions since they were last reported. -/
  ended : List SessionEnd
  deriving DecidableEq

/-- What comes in from outside. -/
inductive Input where
  /-- A client connects. -/
  | connect (v : Visitor)
  /-- Bytes arrive, in pieces. -/
  | bytes (conn : ConnectionId) (pieces : List Bytes)
  /-- The client has finished sending, or its connection is reset. -/
  | ending (conn : ConnectionId) (e : Ending)
  /-- The connection changes the way it accepts bytes. -/
  | stall (conn : ConnectionId)
  | resume (conn : ConnectionId)
  | sever (conn : ConnectionId)
  /-- Nothing at all. -/
  | idle
  deriving DecidableEq, Repr

/-- What can be seen from outside after the lobby has worked. -/
structure Report where
  /-- The bytes that clients received, by connection. -/
  received : List (ConnectionId × Bytes)
  /-- The connections whose write side was shut. -/
  shut : List ConnectionId
  /-- The sessions that ended. -/
  ended : List SessionEnd
  deriving DecidableEq, Repr

namespace Lobby

/-- A lobby without sessions. -/
def opened : Lobby := ⟨.empty, .empty, .empty, [], []⟩

variable (rules : Rules)

/-! ## The agenda -/

/-- A job put at the end of the agenda, unless it waits already. -/
def enqueue (l : Lobby) (job : Job) : Lobby :=
  if job ∈ l.agenda then l else { l with agenda := l.agenda ++ [job] }

/-- A line after a move of its own. If the move kicked the session, the session has to look. -/
def updateLine (l : Lobby) (conn : ConnectionId) (before after : Line) : Lobby :=
  let l := { l with lines := l.lines.insert conn after }
  if after.outbox.kicked && !before.outbox.kicked then l.enqueue (.attend conn) else l

/-! ## Pushing -/

/-- A frame pushed to the outbox of a connection, and what comes of it. If it is queued the writer
has to look. A connection without a line has nobody to tell. -/
def push (l : Lobby) (conn : ConnectionId) (f : OutboundFrame) : Except PushError Unit × Lobby :=
  match l.lines.get? conn with
  | none => (.error (.closed conn), l)
  | some line =>
    match line.push f with
    | (.ok (), line') => (.ok (), (l.updateLine conn line line').enqueue (.write conn))
    | (.error e, line') => (.error e, l.updateLine conn line line')

/-- Offers pushed in order. -/
def deliver (l : Lobby) (offers : List Offer) : Lobby :=
  offers.foldl (fun l o => (l.push o.recipient o.message.frame).2) l

/-- A turn taken with the registry, and its offers pushed. -/
def takeTurn (l : Lobby) (turn : Turn → Turn) : Lobby :=
  let t := turn ⟨l.registry, []⟩
  { l with registry := t.registry }.deliver t.offers

/-! ## Sessions -/

/-- The end of a session, which then has to depart. -/
def finish (l : Lobby) (conn : ConnectionId) (error : Option SessionError) : Lobby :=
  if l.sessions.contains conn then
    let l : Lobby := { l with
      sessions := l.sessions.erase conn
      ended := l.ended ++ [⟨conn, error⟩] }
    l.enqueue (.depart conn)
  else l

/-- The first frame of a connection. -/
def welcome (conn : ConnectionId) (f : Frame) (l : Lobby) : Lobby :=
  match Session.greet rules f with
  | .error e => l.finish conn (some e)
  | .ok handshake =>
    match l.push conn ⟨.handshakeConnected, handshake.reply.encode⟩ with
    | (.error e, l) => l.finish conn (some (.push e))
    | (.ok (), l) =>
      { l with sessions := l.sessions.modify conn fun s => { s with greeted := true } }

/-- A frame from a client whose session has not ended. -/
def handle (conn : ConnectionId) (f : Frame) (l : Lobby) : Lobby :=
  match l.sessions.get? conn with
  | none => l
  | some s =>
    if s.greeted then l.takeTurn (Session.handle rules s.visitor f)
    else welcome rules conn f l

/-- The end of what a client sends. It is a regular end after the handshake, if no frame is cut
off. -/
def onStop (conn : ConnectionId) (e : FrameError) (l : Lobby) : Lobby :=
  match l.sessions.get? conn with
  | none => l
  | some s => l.finish conn (if s.greeted ∧ e = .closed then none else some (.frame e))

/-- A session reads and handles what its client has sent. -/
def serve (l : Lobby) (conn : ConnectionId) : Lobby :=
  match l.sessions.get? conn with
  | none => l
  | some s =>
    let (frames, stop, rest) := s.input.frames .clientToServer
    let l := { l with sessions := l.sessions.modify conn fun s => { s with input := rest } }
    let l := frames.foldl (fun l f => handle rules conn f l) l
    match stop with
    | none => l
    | some e => onStop conn e l

/-- Whether a kick is stored for a session. -/
def isKicked (l : Lobby) (conn : ConnectionId) : Bool :=
  (l.lines.get? conn).any (·.outbox.kicked)

/-- A session handles what there is and then ends if it was kicked. A session that has not shaken
hands does not look for kicks. -/
def attend (l : Lobby) (conn : ConnectionId) : Lobby :=
  let l := serve rules l conn
  if (l.sessions.get? conn).any (·.greeted) && l.isKicked conn then l.finish conn none else l

/-- A session that has ended departs. Nobody can push to its outbox any more. -/
def depart (l : Lobby) (conn : ConnectionId) : Lobby :=
  let l := l.takeTurn (Session.depart rules conn)
  let l := { l with lines := l.lines.modify conn .release }
  l.enqueue (.write conn)

/-! ## Writers -/

/-- The work of one writer. -/
def write (l : Lobby) (conn : ConnectionId) : Lobby :=
  match l.lines.get? conn with
  | none => l
  | some line => l.updateLine conn line (line.write rules.checksum)

/-! ## Work until nothing moves -/

/-- One job done. -/
def perform (l : Lobby) : Job → Lobby
  | .attend conn => attend rules l conn
  | .write conn => write rules l conn
  | .depart conn => depart rules l conn

/-- The first jobs of the agenda, at most `fuel` of them, and those they bring up. -/
def settleUpTo : Nat → Lobby → Lobby
  | 0, l => l
  | fuel + 1, l =>
    match l.agenda with
    | [] => l
    | job :: rest => settleUpTo fuel (perform rules { l with agenda := rest } job)

/-- No fewer jobs than there can be. A job brings up at most one writer's job for each line. Other
jobs come up when a line is kicked and when a session ends, and each line is kicked once and each
session ends once. -/
def workload (l : Lobby) : Nat :=
  (l.agenda.length + l.lines.size + l.sessions.size) * (l.lines.size + 1)

/-- All jobs done. -/
def settle (l : Lobby) : Lobby :=
  settleUpTo rules l.workload l

/-! ## Input and report -/

/-- A session for a client that connects, unless the connection has one. None if an outbox of the
chosen capacity cannot be made. -/
def connect (v : Visitor) (l : Lobby) : Option Lobby :=
  if l.sessions.contains v.conn then some l
  else
    (Line.new? v.conn rules.config.outboxCapacity).map fun line =>
      { l with
        sessions := l.sessions.insert v.conn ⟨v, false, .opened⟩
        lines := l.lines.insert v.conn line }

/-- The connection behind a line changed, so its writer has to look. -/
def onLink (conn : ConnectionId) (f : Writer → Writer) (l : Lobby) : Lobby :=
  let l := { l with lines := l.lines.modify conn (·.onWriter f) }
  l.enqueue (.write conn)

/-- More input for a session that has not ended, which has to look. -/
def feed (conn : ConnectionId) (more : Stream → Stream) (l : Lobby) : Lobby :=
  let l := { l with sessions := l.sessions.modify conn fun s => { s with input := more s.input } }
  l.enqueue (.attend conn)

/-- What an input changes before any job is done. -/
def receive (l : Lobby) : Input → Option Lobby
  | .connect v => connect rules v l
  | .bytes conn pieces => some (feed conn (fun s => { s with pieces := s.pieces ++ pieces }) l)
  | .ending conn e => some (feed conn (fun s => { s with ending := e }) l)
  | .stall conn => some (l.onLink conn .stall)
  | .resume conn => some (l.onLink conn .resume)
  | .sever conn => some (l.onLink conn .sever)
  | .idle => some l

/-- Whether the write side of a connection is shut. -/
def isShut (l : Lobby) (conn : ConnectionId) : Bool :=
  (l.lines.get? conn).any (·.writer.shut)

/-- The lobby after its clients have collected what they were sent. -/
def collected (l : Lobby) : Lobby :=
  { l with
    lines := l.lines.mapValues fun _ line => line.collect.2
    ended := [] }

/-- What can be seen of a lobby that had the lines of `before`. -/
def report (before l : Lobby) : Report where
  received :=
    ((ascending (·.1.number.toNat) l.lines.entries).map fun e => (e.1, e.2.collect.1)).filter
      (·.2 ≠ [])
  shut :=
    (ascending (·.number.toNat) l.lines.keys).filter fun conn => l.isShut conn && !before.isShut conn
  ended := ascending (·.conn.number.toNat) l.ended

/-- All the work that an input causes, and what can be seen of it. None only if the outbox of a new
connection cannot be made. -/
def step (l : Lobby) (i : Input) : Option (Report × Lobby) :=
  (receive rules l i).map fun l' =>
    let settled := settle rules l'
    (report l settled, settled.collected)

end Lobby

end GameLobby
