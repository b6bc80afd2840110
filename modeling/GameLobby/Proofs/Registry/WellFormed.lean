import GameLobby.Registry.Basic
import GameLobby.Table.Lemmas

/-!
# Well-formed registries

`Registry.Filed` says that accounts and rooms are filed under their connections and that the numbers
of rooms lead to the rooms, so a room is found by its number exactly if it is filed under its owner
(`Filed.room?_eq_some_iff`). `Registry.WellFormed` adds that the owner of a room has its first seat,
that nobody has two seats in a room, that room numbers were given out, and that a joined room is a
room of somebody else in which the account has a seat.
-/

namespace GameLobby

/-! ## Seats of one room -/

namespace Room

/-- The room as those other than `conn` see it. -/
def without (conn : ConnectionId) (r : Room) : Room :=
  { r with players := r.players.filter (· ≠ conn) }

@[simp] theorem id_seat (conn : ConnectionId) (r : Room) : (r.seat conn).id = r.id := by
  unfold seat; split <;> rfl

@[simp] theorem owner_seat (conn : ConnectionId) (r : Room) : (r.seat conn).owner = r.owner := by
  unfold seat; split <;> rfl

@[simp] theorem ownerUid_seat (conn : ConnectionId) (r : Room) :
    (r.seat conn).ownerUid = r.ownerUid := by
  unfold seat; split <;> rfl

@[simp] theorem toListing_seat (conn : ConnectionId) (r : Room) :
    (r.seat conn).toListing = r.toListing := by
  unfold seat; split <;> rfl

@[simp] theorem id_unseat (conn : ConnectionId) (r : Room) : (r.unseat conn).id = r.id := by
  unfold unseat; split <;> rfl

@[simp] theorem owner_unseat (conn : ConnectionId) (r : Room) :
    (r.unseat conn).owner = r.owner := by
  unfold unseat; split <;> rfl

@[simp] theorem ownerUid_unseat (conn : ConnectionId) (r : Room) :
    (r.unseat conn).ownerUid = r.ownerUid := by
  unfold unseat; split <;> rfl

@[simp] theorem toListing_unseat (conn : ConnectionId) (r : Room) :
    (r.unseat conn).toListing = r.toListing := by
  unfold unseat; split <;> rfl

@[simp] theorem without_seat (conn : ConnectionId) (r : Room) :
    (r.seat conn).without conn = r.without conn := by
  unfold seat
  split
  · rfl
  · simp [without]

@[simp] theorem without_unseat (conn : ConnectionId) (r : Room) :
    (r.unseat conn).without conn = r.without conn := by
  unfold unseat
  split
  · rfl
  · simp [without]

theorem seat_of_mem {conn : ConnectionId} {r : Room} (h : conn ∈ r.players) : r.seat conn = r :=
  if_pos (hasSeat_iff.mpr h)

theorem seat_of_not_mem {conn : ConnectionId} {r : Room} (h : conn ∉ r.players) :
    r.seat conn = { r with players := r.players ++ [conn] } :=
  if_neg (mt hasSeat_iff.mp h)

theorem head?_players_seat {conn o : ConnectionId} {r : Room} (h : r.players.head? = some o) :
    (r.seat conn).players.head? = some o := by
  unfold seat
  split
  · exact h
  · simp [h]

/-- The first seat is the owner's, which is not taken back. -/
theorem head?_players_unseat {conn : ConnectionId} {r : Room}
    (h : r.players.head? = some r.owner) : (r.unseat conn).players.head? = some r.owner := by
  unfold unseat
  split
  · exact h
  · rename_i hne
    obtain ⟨rest, hrest⟩ := List.head?_eq_some_iff.mp h
    have hkeep : r.owner ≠ conn := Ne.symm hne
    simp [hrest, hkeep]

theorem nodup_players_seat {conn : ConnectionId} {r : Room} (h : r.players.Nodup) :
    (r.seat conn).players.Nodup := by
  unfold seat
  split
  · exact h
  · rename_i hseat
    rw [hasSeat_iff] at hseat
    refine List.nodup_append.mpr ⟨h, by simp, ?_⟩
    intro c hc d hd hcd
    rw [List.mem_singleton.mp hd] at hcd
    exact hseat (hcd ▸ hc)

theorem nodup_players_unseat {conn : ConnectionId} {r : Room} (h : r.players.Nodup) :
    (r.unseat conn).players.Nodup := by
  unfold unseat
  split
  · exact h
  · exact h.filter _

end Room

namespace Registry

/-! ## What changes in place show -/

section Views

variable (reg : Registry)

@[simp] theorem account?_modifyRoom (o c : ConnectionId) (g : Room → Room) :
    (reg.modifyRoom o g).account? c = reg.account? c := rfl

@[simp] theorem roomOf?_modifyAccount (o c : ConnectionId) (f : Account → Account) :
    (reg.modifyAccount o f).roomOf? c = reg.roomOf? c := rfl

@[simp] theorem room?_modifyAccount (c : ConnectionId) (f : Account → Account) (id : RoomId) :
    (reg.modifyAccount c f).room? id = reg.room? id := rfl

@[simp] theorem roomOf?_forgetSeats (id : RoomId) (players : List ConnectionId)
    (c : ConnectionId) : (reg.forgetSeats id players).roomOf? c = reg.roomOf? c := rfl

theorem account?_modifyAccount (conn c : ConnectionId) (f : Account → Account) :
    (reg.modifyAccount conn f).account? c =
      (reg.account? c).map fun a => if c = conn then f a else a := by
  show (reg.accounts.modify conn f).get? c = _
  rw [Table.modify, Table.get?_mapValues]
  rfl

theorem roomOf?_modifyRoom (o c : ConnectionId) (g : Room → Room) :
    (reg.modifyRoom o g).roomOf? c = (reg.roomOf? c).map fun r => if c = o then g r else r := by
  show (reg.rooms.modify o g).get? c = _
  rw [Table.modify, Table.get?_mapValues]
  rfl

theorem account?_forgetSeats (id : RoomId) (players : List ConnectionId) (c : ConnectionId) :
    (reg.forgetSeats id players).account? c =
      (reg.account? c).map fun a =>
        if c ∈ players ∧ a.joinedRoom = some id then { a with joinedRoom := none } else a :=
  Table.get?_mapValues _ _ _

theorem room?_eq_some {id : RoomId} {r : Room} :
    reg.room? id = some r ↔ ∃ o, reg.owners.get? id = some o ∧ reg.roomOf? o = some r :=
  Option.bind_eq_some_iff

theorem mem_rooms_iff {r : Room} : r ∈ reg.rooms.values ↔ ∃ o, reg.roomOf? o = some r :=
  Table.mem_values_iff

section ModifyRoomAt

variable (id : RoomId) (g : Room → Room)

@[simp] theorem account?_modifyRoomAt (c : ConnectionId) :
    (reg.modifyRoomAt id g).account? c = reg.account? c := by
  unfold modifyRoomAt
  split <;> rfl

@[simp] theorem owners_modifyRoomAt : (reg.modifyRoomAt id g).owners = reg.owners := by
  unfold modifyRoomAt
  split <;> rfl

@[simp] theorem lastUid_modifyRoomAt : (reg.modifyRoomAt id g).lastUid = reg.lastUid := by
  unfold modifyRoomAt
  split <;> rfl

@[simp] theorem lastRoomId_modifyRoomAt : (reg.modifyRoomAt id g).lastRoomId = reg.lastRoomId := by
  unfold modifyRoomAt
  split <;> rfl

theorem roomOf?_modifyRoomAt (o : ConnectionId) :
    (reg.modifyRoomAt id g).roomOf? o =
      (reg.roomOf? o).map fun r => if reg.owners.get? id = some o then g r else r := by
  unfold modifyRoomAt
  split
  · rename_i hnone
    simp [hnone]
  · rename_i owner howner
    rw [roomOf?_modifyRoom]
    simp only [howner, Option.some.injEq, eq_comm]

theorem room?_modifyRoomAt : (reg.modifyRoomAt id g).room? id = (reg.room? id).map g := by
  unfold room?
  rw [owners_modifyRoomAt]
  cases ho : reg.owners.get? id with
  | none => rfl
  | some o =>
    show (reg.modifyRoomAt id g).roomOf? o = (reg.roomOf? o).map g
    simp [roomOf?_modifyRoomAt, ho]

end ModifyRoomAt

end Views

/-! ## Accounts and rooms under their keys -/

/-- Accounts and rooms are filed under their connections, and room numbers lead to the rooms. -/
structure Filed (reg : Registry) : Prop where
  conn_eq : ∀ {c a}, reg.account? c = some a → a.conn = c
  owner_eq : ∀ {o r}, reg.roomOf? o = some r → r.owner = o
  owners_iff : ∀ {id o}, reg.owners.get? id = some o ↔ ∃ r, reg.roomOf? o = some r ∧ r.id = id

namespace Filed

variable {reg : Registry} (h : reg.Filed)

include h

/-- The room with a number is the one that its owner has. -/
theorem room?_eq_some_iff {id : RoomId} {r : Room} :
    reg.room? id = some r ↔ reg.roomOf? r.owner = some r ∧ r.id = id := by
  rw [room?_eq_some]
  constructor
  · rintro ⟨o, ho, hr⟩
    obtain ⟨r', hr', hid⟩ := h.owners_iff.mp ho
    rw [hr, Option.some.injEq] at hr'
    subst hr'
    exact ⟨(h.owner_eq hr).symm ▸ hr, hid⟩
  · rintro ⟨hr, hid⟩
    exact ⟨r.owner, h.owners_iff.mpr ⟨r, hr, hid⟩, hr⟩

theorem room?_of_roomOf? {o : ConnectionId} {r : Room} (hr : reg.roomOf? o = some r) :
    reg.room? r.id = some r :=
  h.room?_eq_some_iff.mpr ⟨(h.owner_eq hr).symm ▸ hr, rfl⟩

theorem id_of_room? {id : RoomId} {r : Room} (hr : reg.room? id = some r) : r.id = id :=
  (h.room?_eq_some_iff.mp hr).2

theorem roomOf?_owner {id : RoomId} {r : Room} (hr : reg.room? id = some r) :
    reg.roomOf? r.owner = some r :=
  (h.room?_eq_some_iff.mp hr).1

theorem room?_of_mem {r : Room} (hr : r ∈ reg.rooms.values) : reg.room? r.id = some r := by
  obtain ⟨o, ho⟩ := (mem_rooms_iff reg).mp hr
  exact h.room?_of_roomOf? ho

theorem mem_of_room? {id : RoomId} {r : Room} (hr : reg.room? id = some r) :
    r ∈ reg.rooms.values :=
  (mem_rooms_iff reg).mpr ⟨r.owner, h.roomOf?_owner hr⟩

/-- A number is nobody's room's exactly if no room is found by it. -/
theorem forall_id_ne_iff {id : RoomId} :
    (∀ r ∈ reg.rooms.values, r.id ≠ id) ↔ reg.room? id = none := by
  constructor
  · intro hne
    cases hroom : reg.room? id with
    | none => rfl
    | some r => exact absurd (h.id_of_room? hroom) (hne r (h.mem_of_room? hroom))
  · intro hnone r hr hid
    exact nomatch (hid ▸ h.room?_of_mem hr).symm.trans hnone

/-- What holds of some room with a number holds of the one that is found by it. -/
theorem exists_id_eq_iff {id : RoomId} {room : Room} (hroom : reg.room? id = some room)
    (P : Room → Prop) : (∃ r ∈ reg.rooms.values, r.id = id ∧ P r) ↔ P room := by
  constructor
  · rintro ⟨r, hr, rfl, hp⟩
    exact Option.some.inj ((h.room?_of_mem hr).symm.trans hroom) ▸ hp
  · exact fun hp => ⟨room, h.mem_of_room? hroom, h.id_of_room? hroom, hp⟩

/-- Two rooms with one number are one room. -/
theorem room_eq_of_id_eq {o o' : ConnectionId} {r r' : Room} (hr : reg.roomOf? o = some r)
    (hr' : reg.roomOf? o' = some r') (hid : r.id = r'.id) : r = r' := by
  have hlook := h.room?_of_roomOf? hr
  rw [hid, h.room?_of_roomOf? hr', Option.some.injEq] at hlook
  exact hlook.symm

/-- The owner of the room with a number owns no room with another number. -/
theorem eq_owner_iff {id : RoomId} {o : ConnectionId} {r room : Room}
    (hroom : reg.room? id = some room) (hr : reg.roomOf? o = some r) :
    o = room.owner ↔ r.id = id := by
  have hown := h.roomOf?_owner hroom
  constructor
  · intro ho
    rw [ho, hown, Option.some.injEq] at hr
    rw [← hr, h.id_of_room? hroom]
  · intro ho
    rw [← h.owner_eq hr, h.room_eq_of_id_eq hr hown (ho.trans (h.id_of_room? hroom).symm)]

/-- A room of somebody else than `conn` is another one than that of `conn`. -/
theorem id_ne_of_owner_ne {conn o : ConnectionId} {r : Room} (hr : reg.roomOf? o = some r)
    (ho : o ≠ conn) : some r.id ≠ (reg.roomOf? conn).map (·.id) := by
  intro hid
  obtain ⟨room, hroom, hrid⟩ := Option.map_eq_some_iff.mp hid.symm
  exact ho ((h.eq_owner_iff (h.room?_of_roomOf? hroom) hr).mpr hrid.symm |>.trans
    (h.owner_eq hroom))

end Filed

/-! ## Well-formedness -/

/-- How accounts, rooms and seats fit together. -/
structure WellFormed (reg : Registry) : Prop extends Filed reg where
  owner_first : ∀ {o r}, reg.roomOf? o = some r → r.players.head? = some o
  players_nodup : ∀ {o r}, reg.roomOf? o = some r → r.players.Nodup
  id_le : ∀ {o r}, reg.roomOf? o = some r → r.id.number ≤ reg.lastRoomId
  joined_seat : ∀ {c a id}, reg.account? c = some a → a.joinedRoom = some id →
    ∃ r, reg.room? id = some r ∧ c ∈ r.players ∧ r.owner ≠ c

theorem wellFormed_empty : empty.WellFormed where
  conn_eq h := nomatch h
  owner_eq h := nomatch h
  owners_iff := ⟨fun h => (nomatch h), fun ⟨_, h, _⟩ => (nomatch h)⟩
  owner_first h := nomatch h
  players_nodup h := nomatch h
  id_le h := nomatch h
  joined_seat h := nomatch h

theorem WellFormed.owner_mem_players {reg : Registry} (h : reg.WellFormed) {o : ConnectionId}
    {r : Room} (hr : reg.roomOf? o = some r) : o ∈ r.players :=
  List.mem_of_mem_head? (h.owner_first hr)

end Registry

end GameLobby
