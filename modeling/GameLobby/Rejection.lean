import GameLobby.Admission
import GameLobby.Message.ResultCode
import GameLobby.Registry.Basic

/-!
# Rejections

A request that is understood but not carried out is answered with a code and a text. A rejection
does not end the session.
-/

namespace GameLobby

/-- Why a request is not carried out. -/
inductive Rejection where
  | notLoggedIn
  | wrongVersion (expected actual : UInt32)
  | invalidCdKey (entry : Entry)
  | authenticationFailed
  | nameTaken
  | roomNotFound (room : RoomId)
  | roomFull (room : RoomId)
  /-- The sender owns no room. -/
  | noRoom
  /-- The sender owns another room. -/
  | otherRoom (expected actual : RoomId)
  | notJoined
  /-- The client could not make its game reachable. -/
  | bridgeFailed
  /-- What the room shows would not fit a frame. -/
  | tooLarge (size : Nat)
  | failure (text : String)
  deriving DecidableEq, Repr

namespace Rejection

/-- The code in the answer. -/
def code : Rejection → ResultCode
  | .notLoggedIn | .noRoom => .noSession
  | .wrongVersion .. => .wrongVersion
  | .invalidCdKey .login => .invalidKeyAtLogin
  | .invalidCdKey .newAccount => .invalidKeyAtCreation
  | .authenticationFailed => .authenticationFailed
  | .nameTaken => .userExists
  | .roomNotFound _ => .roomNotFound
  | .roomFull _ => .roomFull
  | .otherRoom .. | .notJoined | .bridgeFailed | .tooLarge _ | .failure _ => .failure

/-- The text in the answer. -/
def message : Rejection → String
  | .notLoggedIn => "not logged in"
  | .wrongVersion .. => "Patchlevel does not match"
  | .invalidCdKey _ => "CD key invalid"
  | .authenticationFailed => "authentication failed"
  | .nameTaken => "user already exists"
  | .roomNotFound _ => "game server not found"
  | .roomFull _ => "game server full"
  | .noRoom => "No server"
  | .otherRoom .. => "Invalid ServerID"
  | .notJoined => "user has not joined any server"
  | .bridgeFailed => "failed to create bridge connector"
  | .tooLarge _ => "game server data too large"
  | .failure text => text

/-- The rejection of a request whose credentials are refused. -/
def ofRefusal (entry : Entry) : Refusal → Rejection
  | .invalidCdKey => .invalidCdKey entry
  | .badCredentials => .authenticationFailed
  | .nameTaken => .nameTaken

/-- The rejection of a request that the registry does not let through. -/
def ofRegistry : RegistryError → Rejection
  | .noAccount _ => .notLoggedIn
  | .roomNotFound room => .roomNotFound room
  | .roomFull room => .roomFull room
  | .notInRoom .. | .ownerSeat _ => .notJoined
  | e => .failure e.message

/-- The answer to a rejected request. -/
def answer (r : Rejection) (ticketId : UInt32) : ResultMessage :=
  .withCode r.code (Text.utf8 r.message) ticketId

end Rejection

end GameLobby
