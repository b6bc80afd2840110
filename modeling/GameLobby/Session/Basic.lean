import GameLobby.Frame.Stream
import GameLobby.Handshake
import GameLobby.Session.Requests

/-!
# Sessions

What a session does with a frame. The first frame has to be a handshake. After it come requests,
each of which is carried out or rejected with an answer; signs of life, frames of other kinds and
payloads that hold no request are passed over. At the end of a session its account goes, and what
hung on the account goes with it (`depart`).
-/

namespace GameLobby

/-- Why a session ends, if not because the client has finished. -/
inductive SessionError where
  | frame (e : FrameError)
  /-- The first frame is of another kind. -/
  | unexpectedFrame (frameType : UInt32)
  | handshakeSize (e : HandshakeSizeError)
  /-- The answer to the handshake cannot be queued. -/
  | push (e : PushError)
  deriving DecidableEq, Repr

/-- What an error says. -/
def SessionError.message : SessionError → String
  | .frame e => e.message
  | .unexpectedFrame n => "unexpected frame type " ++ toString n
  | .handshakeSize e => e.message
  | .push e => e.message

namespace Session

variable (rules : Rules)

/-- The handshake in a connection's first frame. The kind of frame is looked at first, then the
size, then the checksum if it has to be right. -/
def greet (f : Frame) : Except SessionError Handshake :=
  if f.header.kind? ≠ some .handshakeConnect then .error (.unexpectedFrame f.header.frameType)
  else
    match Handshake.decode f.payload with
    | .error e => .error (.handshakeSize e)
    | .ok handshake =>
      if rules.config.verifyHandshakeChecksum then
        match f.checksumFault? rules.checksum with
        | some e => .error (.frame e)
        | none => .ok handshake
      else .ok handshake

/-- A request carried out, or rejected with an answer. -/
def serve (v : Visitor) (r : Request) (t : Turn) : Turn :=
  match Handler.run (carryOut rules v r) t with
  | (.ok (), t) => t
  | (.error rejection, t) =>
    { t with offers := t.offers ++ [⟨v.conn, .resultMessage (rejection.answer r.ticketId)⟩] }

/-- The request in a frame, if there is one. -/
def request? (f : Frame) : Option Request :=
  if f.header.kind? = some .applicationMessage then
    match Received.ofPayload f.payload with
    | .ok received => received.message.request?
    | .error _ => none
  else none

/-- What a session does with a frame after the handshake. -/
def handle (v : Visitor) (f : Frame) (t : Turn) : Turn :=
  match request? f with
  | some r => serve rules v r t
  | none => t

/-- The news of a departure: the room that went, the room that was left, the user. -/
def farewell (d : Logout) : List News :=
  (d.ownedRoom.map fun room => .roomRemoved ⟨room.id.number, room.running, 0⟩).toList ++
    (d.leftRoom.map fun room => .roomUpdated (room.snapshot 0)).toList ++
    [.loggedOut d.account.uid d.account.name]

/-- The end of a session: its account goes, and those who remain are told. Without an account
nothing happens. -/
def depart (conn : ConnectionId) (t : Turn) : Turn :=
  match t.registry.logOut conn with
  | (none, _) => t
  | (some d, registry) =>
    { registry
      offers := t.offers ++
        (farewell d).flatMap (·.offers rules.config.announceLogins registry) }

end Session

end GameLobby
