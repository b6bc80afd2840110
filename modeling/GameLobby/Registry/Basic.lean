import GameLobby.Listing
import GameLobby.Registry.Account
import GameLobby.Registry.Room
import GameLobby.Table.Basic

/-!
# The registry

Who is logged in and which rooms there are. An account belongs to a connection, and so does a room:
a connection owns at most one. Rooms are also found by number. Numbers of users and rooms go up by
one and start at 1.

Each operation gives its answer and the registry after it. The registry keeps no rules about who may
do what; sessions ask first.
-/

namespace GameLobby

/-- Accounts and rooms. -/
structure Registry where
  accounts : Table ConnectionId Account
  /-- Rooms by owner. -/
  rooms : Table ConnectionId Room
  /-- Owners by room number. -/
  owners : Table RoomId ConnectionId
  lastUid : UInt32
  lastRoomId : UInt32
  deriving DecidableEq, Inhabited

/-- Why an operation does not go through. -/
inductive RegistryError where
  | accountExists (conn : ConnectionId)
  | noAccount (conn : ConnectionId)
  | roomExists (conn : ConnectionId)
  | roomNotFound (room : RoomId)
  | roomFull (room : RoomId)
  /-- The owner cannot give up the seat in its own room. -/
  | ownerSeat (room : RoomId)
  | notInRoom (room : RoomId) (conn : ConnectionId)
  deriving DecidableEq, Repr

/-- What an error says. -/
def RegistryError.message : RegistryError → String
  | .accountExists conn => toString conn ++ " already has an account"
  | .noAccount conn => "no account for " ++ toString conn
  | .roomExists conn => toString conn ++ " already owns a room"
  | .roomNotFound room => toString room ++ " not found"
  | .roomFull room => toString room ++ " is full"
  | .ownerSeat room => "owner cannot leave " ++ toString room
  | .notInRoom room conn => toString conn ++ " is not a player in " ++ toString room

/-- What goes when an account goes. -/
structure Logout where
  account : Account
  /-- The room the account owned. -/
  ownedRoom : Option Room
  /-- The room of somebody else in which the account had a seat, without it. -/
  leftRoom : Option Room
  deriving DecidableEq, Repr

/-- What a change of seats comes to. -/
structure SeatChange where
  /-- The room with the new seat. -/
  entered : Room
  /-- The room with the old seat, without it. -/
  left : Option Room
  deriving DecidableEq, Repr

/-- Numbers about a registry. -/
structure Census where
  users : Nat
  lastUid : UInt32
  rooms : Nat
  deriving DecidableEq, Repr

namespace Registry

/-- Nobody is logged in and there is no room. -/
def empty : Registry := ⟨.empty, .empty, .empty, 0, 0⟩

/-! ## Looking -/

/-- The account of a connection. -/
def account? (reg : Registry) (conn : ConnectionId) : Option Account :=
  reg.accounts.get? conn

/-- The room a connection owns. -/
def roomOf? (reg : Registry) (conn : ConnectionId) : Option Room :=
  reg.rooms.get? conn

/-- The room with a number. -/
def room? (reg : Registry) (id : RoomId) : Option Room :=
  (reg.owners.get? id).bind reg.rooms.get?

/-- All accounts by user number. -/
def accountsInOrder (reg : Registry) : List Account :=
  ascending (·.uid.number.toNat) reg.accounts.values

/-- The accounts that subscribed to a topic, by user number. -/
def subscribers (reg : Registry) (t : Topic) : List Account :=
  ascending (·.uid.number.toNat) (reg.accounts.values.filter (·.subscriptions.get t))

/-- All rooms by number. -/
def roomsInOrder (reg : Registry) : List Room :=
  ascending (·.id.number.toNat) reg.rooms.values

/-- How many accounts and rooms there are, and the last user number given. -/
def census (reg : Registry) : Census :=
  ⟨reg.accounts.size, reg.lastUid, reg.rooms.size⟩

/-! ## Changing accounts and rooms in place -/

/-- The account of a connection changed. -/
def modifyAccount (reg : Registry) (conn : ConnectionId) (f : Account → Account) : Registry :=
  { reg with accounts := reg.accounts.modify conn f }

/-- The room of a connection changed. -/
def modifyRoom (reg : Registry) (owner : ConnectionId) (f : Room → Room) : Registry :=
  { reg with rooms := reg.rooms.modify owner f }

/-- The room with a number changed, if there is one. -/
def modifyRoomAt (reg : Registry) (id : RoomId) (f : Room → Room) : Registry :=
  match reg.owners.get? id with
  | none => reg
  | some owner => reg.modifyRoom owner f

/-- The registry after everybody's note of a seat in room `id` is gone. -/
def forgetSeats (reg : Registry) (id : RoomId) (players : List ConnectionId) : Registry :=
  { reg with
    accounts := reg.accounts.mapValues fun conn a =>
      if conn ∈ players ∧ a.joinedRoom = some id then { a with joinedRoom := none } else a }

/-! ## Accounts -/

/-- A new account for a connection that has none. -/
def logIn (reg : Registry) (conn : ConnectionId) (name : RawText) (outbox : ConnectionId) :
    Except RegistryError UserId × Registry :=
  if reg.accounts.contains conn then (.error (.accountExists conn), reg)
  else
    let uid : UserId := ⟨reg.lastUid + 1⟩
    let account : Account := ⟨conn, uid, name, .none, none, outbox⟩
    (.ok uid, { reg with lastUid := uid.number, accounts := reg.accounts.insert conn account })

/-- The topic of an account turned on or off. -/
def setSubscription (reg : Registry) (conn : ConnectionId) (t : Topic) (on : Bool) :
    Except RegistryError Unit × Registry :=
  if reg.accounts.contains conn then
    (.ok (), reg.modifyAccount conn fun a => { a with subscriptions := a.subscriptions.set t on })
  else (.error (.noAccount conn), reg)

/-! ## Rooms -/

/-- A new room for a connection that owns none. -/
def openRoom (reg : Registry) (conn : ConnectionId) (ownerUid : UserId) (settings : RoomSettings) :
    Except RegistryError Room × Registry :=
  if reg.rooms.contains conn then (.error (.roomExists conn), reg)
  else
    let id : RoomId := ⟨reg.lastRoomId + 1⟩
    let room := Room.opened id conn ownerUid settings
    (.ok room,
      { reg with
        lastRoomId := id.number
        owners := reg.owners.insert id conn
        rooms := reg.rooms.insert conn room })

/-- The room of a connection taken away. Its guests lose their seats. -/
def closeRoom (reg : Registry) (conn : ConnectionId) : Option Room × Registry :=
  match reg.rooms.get? conn with
  | none => (none, reg)
  | some room =>
    let reg := { reg with rooms := reg.rooms.erase conn, owners := reg.owners.erase room.id }
    (some room, reg.forgetSeats room.id room.players)

/-- The room of a connection edited in any way at all. The registry goes on filing it under the same
connection and the same number, whatever the edit has made of these. -/
def updateRoom (reg : Registry) (conn : ConnectionId) (edit : Room → Room) :
    Option Room × Registry :=
  let reg' := reg.modifyRoom conn edit
  match reg'.rooms.get? conn with
  | none => (none, reg)
  | some room => (some room, reg')

/-- The listing of a connection's room edited, which is all that sessions edit. -/
def editRoom (reg : Registry) (conn : ConnectionId) (edit : Listing → Listing) :
    Option Room × Registry :=
  reg.updateRoom conn (.relist edit)

/-! ## Seats -/

/-- The seat of a connection in room `id` given back, and the room without it. Nothing if there is
no such room. -/
def vacate (reg : Registry) (id : RoomId) (conn : ConnectionId) : Option Room × Registry :=
  match reg.room? id with
  | none => (none, reg)
  | some room => (some (room.unseat conn), reg.modifyRoomAt id (·.unseat conn))

/-- A seat in room `id` for a connection, if there is a place or it has one already. A guest's
account notes the room. -/
def takeSeat (reg : Registry) (id : RoomId) (conn : ConnectionId) :
    Except RegistryError Room × Registry :=
  match reg.room? id with
  | none => (.error (.roomNotFound id), reg)
  | some room =>
    if !room.hasSeat conn && room.isFull then (.error (.roomFull id), reg)
    else
      let reg := reg.modifyRoomAt id (·.seat conn)
      (.ok (room.seat conn),
        if room.owner = conn then reg
        else reg.modifyAccount conn fun a => { a with joinedRoom := some id })

/-- A move to room `id`: a seat there for the seat in the room joined before. Nothing is given up
unless there is a place. The owner of a room keeps its seat in it wherever else it goes. -/
def changeSeat (reg : Registry) (id : RoomId) (conn : ConnectionId) :
    Except RegistryError SeatChange × Registry :=
  match reg.room? id with
  | none => (.error (.roomNotFound id), reg)
  | some room =>
    if !room.hasSeat conn && room.isFull then (.error (.roomFull id), reg)
    else
      let reg := reg.modifyRoomAt id (·.seat conn)
      let previous := ((reg.account? conn).bind (·.joinedRoom)).filter (· ≠ id)
      let (left, reg) :=
        match previous with
        | none => (none, reg)
        | some previous => reg.vacate previous conn
      let joined := if room.owner = conn then none else some id
      (.ok ⟨room.seat conn, left⟩,
        reg.modifyAccount conn fun a => { a with joinedRoom := joined })

/-- The seat of a guest in room `id` given up. -/
def leaveSeat (reg : Registry) (id : RoomId) (conn : ConnectionId) :
    Except RegistryError Room × Registry :=
  match reg.room? id with
  | none => (.error (.roomNotFound id), reg)
  | some room =>
    if room.owner = conn then (.error (.ownerSeat id), reg)
    else if room.hasSeat conn then
      let reg := reg.modifyRoomAt id (·.unseat conn)
      (.ok (room.unseat conn),
        reg.modifyAccount conn fun a =>
          if a.joinedRoom = some id then { a with joinedRoom := none } else a)
    else (.error (.notInRoom id conn), reg)

/-! ## Leaving -/

/-- The account of a connection taken away, with the room it owns and its seat in another room. -/
def logOut (reg : Registry) (conn : ConnectionId) : Option Logout × Registry :=
  match reg.accounts.get? conn with
  | none => (none, reg)
  | some account =>
    let reg := { reg with accounts := reg.accounts.erase conn }
    let (ownedRoom, reg) := reg.closeRoom conn
    let (leftRoom, reg) :=
      match account.joinedRoom with
      | none => (none, reg)
      | some id => reg.vacate id conn
    (some ⟨account, ownedRoom, leftRoom⟩, reg)

end Registry

end GameLobby
