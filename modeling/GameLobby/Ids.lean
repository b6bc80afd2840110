/-!
# Identifiers

Users and rooms are numbered by the lobby from 1 on, connections by whoever accepts them. The
three kinds are types of their own, so none can stand where another is meant.
-/

namespace GameLobby

/-- The number of a user, given at login and not used again while the lobby runs. -/
structure UserId where
  number : UInt32
  deriving DecidableEq, Repr, Inhabited

/-- The number of a room. -/
structure RoomId where
  number : UInt32
  deriving DecidableEq, Repr, Inhabited

/-- The number of a connection. -/
structure ConnectionId where
  number : UInt64
  deriving DecidableEq, Repr, Inhabited

instance : ToString UserId := ⟨fun id => "user-" ++ toString id.number⟩

instance : ToString RoomId := ⟨fun id => "room-" ++ toString id.number⟩

instance : ToString ConnectionId := ⟨fun id => "conn-" ++ toString id.number⟩

end GameLobby
