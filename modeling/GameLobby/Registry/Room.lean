import GameLobby.Wire.Field
import GameLobby.Ids

/-!
# Rooms

A room that a user offers for a game. The owner has the first seat and keeps it as long as there is
the room; guests follow in the order in which they came. Players and computer players share the
places, and nobody takes a seat when all places are gone.
-/

namespace GameLobby

/-- What the owner of a room says about it, and the address under which it is reached, which the
lobby adds. -/
structure RoomSettings where
  name : RawText
  description : RawText
  ip : RawText
  port : UInt32
  serverType : UInt8
  lobbyId : UInt32
  version : RawText
  maxPlayers : UInt8
  aiPlayers : UInt8
  level : UInt8
  gameMode : UInt8
  hardcore : Bool
  map : RawText
  automaticJoin : Bool
  data : Bytes
  deriving DecidableEq, Repr

/-- The part of a room that its owner can change. -/
structure Listing where
  settings : RoomSettings
  running : Bool
  /-- Flags that the lobby keeps for the owner without reading them. -/
  propertyMask : UInt32
  deriving DecidableEq, Repr

/-- A room. -/
structure Room extends Listing where
  id : RoomId
  owner : ConnectionId
  ownerUid : UserId
  /-- Who has a seat, in the order of coming. -/
  players : List ConnectionId
  deriving DecidableEq, Repr

namespace Room

/-- A new room, in which only the owner has a seat. -/
def opened (id : RoomId) (owner : ConnectionId) (ownerUid : UserId) (settings : RoomSettings) :
    Room where
  id := id
  owner := owner
  ownerUid := ownerUid
  settings := settings
  running := false
  propertyMask := 0
  players := [owner]

/-- A room of which only the listing is edited. -/
def relist (edit : Listing → Listing) (r : Room) : Room :=
  { r with toListing := edit r.toListing }

/-- Whether a connection has a seat. -/
def hasSeat (r : Room) (conn : ConnectionId) : Bool :=
  r.players.contains conn

/-- How many connections have a seat. -/
def headcount (r : Room) : Nat :=
  r.players.length

/-- Whether all places are gone. -/
def isFull (r : Room) : Bool :=
  decide (r.settings.maxPlayers.toNat ≤ r.players.length + r.settings.aiPlayers.toNat)

/-- A seat given to a connection that has none. -/
def seat (conn : ConnectionId) (r : Room) : Room :=
  if r.hasSeat conn then r else { r with players := r.players ++ [conn] }

/-- The seat of a guest taken back. -/
def unseat (conn : ConnectionId) (r : Room) : Room :=
  if conn = r.owner then r else { r with players := r.players.filter (· ≠ conn) }

theorem hasSeat_iff {r : Room} {conn : ConnectionId} : r.hasSeat conn ↔ conn ∈ r.players :=
  List.contains_iff_mem

/-- A seat given goes to its connection and takes none from the others. -/
theorem mem_players_seat {r : Room} {conn c : ConnectionId} :
    c ∈ (r.seat conn).players ↔ c ∈ r.players ∨ c = conn := by
  unfold seat
  split
  · rename_i h
    rw [hasSeat_iff] at h
    exact ⟨.inl, fun hc => hc.elim (·) fun hc => hc ▸ h⟩
  · simp

/-- A seat taken back is the guest's and nobody else's. -/
theorem mem_players_unseat {r : Room} {conn c : ConnectionId} :
    c ∈ (r.unseat conn).players ↔ c ∈ r.players ∧ (c ≠ conn ∨ conn = r.owner) := by
  unfold unseat
  split
  · rename_i h
    simp [h]
  · rename_i h
    simp [h]

end Room

end GameLobby
