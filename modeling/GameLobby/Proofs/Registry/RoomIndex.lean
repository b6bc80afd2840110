import GameLobby.Proofs.Registry.Preservation

/-!
# Rooms under their numbers

Most calls leave alone which rooms there are and what their numbers are (`SameRooms`); the others
offer a room or take one away. An edit may be of anything else than the number here
(`Call.KeepsId`), and no account and no seat has a part in it. So a number leads to the room that
has it (`Indexed.apply`). A room is found by its number (`Findable`) as long as no number is given
twice.
-/

namespace GameLobby.Registry

/-- The number of the room of a connection. -/
def roomId? (reg : Registry) (c : ConnectionId) : Option RoomId :=
  (reg.roomOf? c).map (·.id)

/-- Rooms have come and gone nowhere, and none has another number. -/
structure SameRooms (reg reg' : Registry) : Prop where
  owners_eq : reg'.owners = reg.owners
  lastRoomId_eq : reg'.lastRoomId = reg.lastRoomId
  roomId?_eq : ∀ c, reg'.roomId? c = reg.roomId? c

namespace SameRooms

variable {reg reg' reg'' : Registry}

theorem of_rooms_eq (howners : reg'.owners = reg.owners)
    (hlast : reg'.lastRoomId = reg.lastRoomId) (hrooms : reg'.rooms = reg.rooms) :
    reg.SameRooms reg' :=
  ⟨howners, hlast, fun c => congrArg (fun rooms => (rooms.get? c).map (·.id)) hrooms⟩

theorem refl (reg : Registry) : reg.SameRooms reg :=
  ⟨rfl, rfl, fun _ => rfl⟩

theorem trans (h : reg.SameRooms reg') (h' : reg'.SameRooms reg'') : reg.SameRooms reg'' :=
  ⟨h'.owners_eq.trans h.owners_eq, h'.lastRoomId_eq.trans h.lastRoomId_eq,
    fun c => (h'.roomId?_eq c).trans (h.roomId?_eq c)⟩

variable (reg)

theorem modifyAccount (conn : ConnectionId) (f : Account → Account) :
    reg.SameRooms (reg.modifyAccount conn f) :=
  of_rooms_eq rfl rfl rfl

theorem modifyRoom (owner : ConnectionId) {g : Room → Room} (hid : ∀ r, (g r).id = r.id) :
    reg.SameRooms (reg.modifyRoom owner g) where
  owners_eq := rfl
  lastRoomId_eq := rfl
  roomId?_eq c := by
    unfold roomId?
    rw [roomOf?_modifyRoom, Option.map_map]
    refine Option.map_congr fun r _ => ?_
    dsimp only [Function.comp]
    split
    · rw [hid]
    · rfl

theorem modifyRoomAt (id : RoomId) {g : Room → Room} (hid : ∀ r, (g r).id = r.id) :
    reg.SameRooms (reg.modifyRoomAt id g) := by
  unfold Registry.modifyRoomAt
  split
  · exact refl reg
  · exact modifyRoom reg _ hid

theorem vacate (id : RoomId) (conn : ConnectionId) : reg.SameRooms (reg.vacate id conn).2 := by
  unfold Registry.vacate
  split
  · exact refl reg
  · exact modifyRoomAt reg id (Room.id_unseat conn)

theorem updateRoom (conn : ConnectionId) {edit : Room → Room} (hid : ∀ r, (edit r).id = r.id) :
    reg.SameRooms (reg.updateRoom conn edit).2 := by
  unfold Registry.updateRoom
  dsimp only
  split
  · exact refl reg
  · exact modifyRoom reg conn hid

theorem takeSeat (id : RoomId) (conn : ConnectionId) :
    reg.SameRooms (reg.takeSeat id conn).2 := by
  unfold Registry.takeSeat
  split
  · exact refl reg
  · rename_i room _
    dsimp only
    split
    · exact refl reg
    · have hseat := modifyRoomAt reg id (Room.id_seat conn)
      split
      · exact hseat
      · exact hseat.trans (modifyAccount _ conn _)

theorem changeSeat (id : RoomId) (conn : ConnectionId) :
    reg.SameRooms (reg.changeSeat id conn).2 := by
  unfold Registry.changeSeat
  split
  · exact refl reg
  · rename_i room _
    dsimp only
    split
    · exact refl reg
    · have hseat := modifyRoomAt reg id (Room.id_seat conn)
      split
      · exact hseat.trans (modifyAccount _ conn _)
      · exact (hseat.trans (vacate _ _ conn)).trans (modifyAccount _ conn _)

theorem leaveSeat (id : RoomId) (conn : ConnectionId) :
    reg.SameRooms (reg.leaveSeat id conn).2 := by
  unfold Registry.leaveSeat
  split
  · exact refl reg
  · rename_i room _
    dsimp only
    split
    · exact refl reg
    · split
      · exact (modifyRoomAt reg id (Room.id_unseat conn)).trans (modifyAccount _ conn _)
      · exact refl reg

/-- Of the rooms, a logout takes away the one of the user only. -/
theorem logOut {conn : ConnectionId} {a : Account} (ha : reg.account? conn = some a) :
    ((reg.withoutAccount conn).closeRoom conn).2.SameRooms (reg.logOut conn).2 := by
  rcases logOut_cases reg conn with ⟨hnone, -⟩ | ⟨b, -, -, heq⟩
  · cases hnone.symm.trans ha
  · rw [heq]
    split
    · exact refl _
    · exact vacate _ _ conn

end SameRooms

/-- A call that neither offers a room nor takes one away, and gives none another number. -/
def Call.SparesRooms : Call → Prop
  | .logOut _ | .openRoom .. | .closeRoom _ => False
  | call => call.KeepsId

theorem Call.SparesRooms.sameRooms {call : Call} (h : call.SparesRooms) (reg : Registry) :
    reg.SameRooms (call.apply reg) := by
  cases call with
  | logOut | openRoom | closeRoom => exact h.elim
  | logIn conn name outbox =>
    show reg.SameRooms (reg.logIn conn name outbox).2
    rcases logIn_cases reg conn name outbox with ⟨_, heq⟩ | ⟨-, heq⟩ <;> rw [heq]
    · exact .refl reg
    · exact .of_rooms_eq rfl rfl rfl
  | setSubscription conn t on =>
    show reg.SameRooms (reg.setSubscription conn t on).2
    unfold Registry.setSubscription
    split
    · exact .modifyAccount reg conn _
    · exact .refl reg
  | updateRoom conn edit => exact .updateRoom reg conn h
  | takeSeat id conn => exact .takeSeat reg id conn
  | changeSeat id conn => exact .changeSeat reg id conn
  | leaveSeat id conn => exact .leaveSeat reg id conn

section Coming

variable (reg : Registry) (conn : ConnectionId)

theorem roomId?_closeRoom (c : ConnectionId) :
    (reg.closeRoom conn).2.roomId? c = if c = conn then none else reg.roomId? c := by
  unfold roomId?
  rw [roomOf?_closeRoom]
  split <;> rfl

theorem owners_closeRoom {room : Room} (hroom : reg.roomOf? conn = some room) :
    (reg.closeRoom conn).2.owners = reg.owners.erase room.id := by
  rcases closeRoom_cases reg conn with ⟨hnone, -⟩ | ⟨r, hr, heq⟩
  · cases hnone.symm.trans hroom
  · cases hr.symm.trans hroom
    rw [heq]
    rfl

variable {reg conn}

theorem roomId?_openRoom (hnone : reg.roomOf? conn = none) (uid : UserId)
    (settings : RoomSettings) (c : ConnectionId) :
    (reg.openRoom conn uid settings).2.roomId? c =
      if c = conn then some ⟨reg.lastRoomId + 1⟩ else reg.roomId? c := by
  unfold roomId?
  rw [WellFormed.roomOf?_openRoom conn uid settings hnone]
  split <;> rfl

theorem owners_openRoom (hnone : reg.roomOf? conn = none) (uid : UserId)
    (settings : RoomSettings) :
    (reg.openRoom conn uid settings).2.owners =
      reg.owners.insert ⟨reg.lastRoomId + 1⟩ conn := by
  rcases openRoom_cases reg conn uid settings with ⟨e, heq⟩ | ⟨-, heq⟩
  · cases (openRoom_of_none hnone).symm.trans (congrArg Prod.fst heq)
  · rw [heq]

end Coming

/-! ## Rooms by number -/

/-- A number leads to a room with that number. -/
def Indexed (reg : Registry) : Prop :=
  ∀ id o, reg.owners.get? id = some o → reg.roomId? o = some id

/-- Every room is found by its number. -/
def Findable (reg : Registry) : Prop :=
  ∀ o id, reg.roomId? o = some id → reg.owners.get? id = some o

theorem indexed_empty : empty.Indexed := nofun

theorem findable_empty : empty.Findable := nofun

variable {reg reg' : Registry}

theorem SameRooms.indexed (h : reg.SameRooms reg') (hindexed : reg.Indexed) : reg'.Indexed :=
  fun id o ho => (h.roomId?_eq o).trans (hindexed id o (h.owners_eq ▸ ho))

theorem SameRooms.findable (h : reg.SameRooms reg') (hfind : reg.Findable) : reg'.Findable :=
  fun o id hid => h.owners_eq ▸ hfind o id ((h.roomId?_eq o).symm.trans hid)

namespace Indexed

variable (h : reg.Indexed)

include h

/-- Two numbers lead to two rooms. -/
theorem id_eq {id id' : RoomId} {o : ConnectionId} (ho : reg.owners.get? id = some o)
    (ho' : reg.owners.get? id' = some o) : id = id' :=
  Option.some.inj ((h id o ho).symm.trans (h id' o ho'))

/-- A seat given back in one room leaves the rooms with other numbers alone. -/
theorem room?_vacate_of_ne {id p : RoomId} (hne : p ≠ id) (conn : ConnectionId) :
    (reg.vacate p conn).2.room? id = reg.room? id := by
  unfold vacate
  cases reg.room? p with
  | none => rfl
  | some room =>
    ext r
    rw [room?_eq_some, room?_eq_some, owners_modifyRoomAt]
    refine exists_congr fun o => and_congr_right fun ho => ?_
    have hother : reg.owners.get? p ≠ some o := fun hp => hne (h.id_eq hp ho)
    rw [roomOf?_modifyRoomAt]
    simp [hother]

theorem closeRoom (conn : ConnectionId) : (reg.closeRoom conn).2.Indexed := by
  intro id o ho
  rw [roomId?_closeRoom]
  cases hroom : reg.roomOf? conn with
  | none =>
    rcases closeRoom_cases reg conn with ⟨-, heq⟩ | ⟨room, hsome, -⟩
    · rw [heq] at ho
      have hid := h id o ho
      rw [if_neg]
      · exact hid
      · rintro rfl
        rw [roomId?, hroom] at hid
        cases hid
    · cases hroom.symm.trans hsome
  | some room =>
    rw [owners_closeRoom reg conn hroom, Table.get?_erase] at ho
    split at ho
    · cases ho
    · rename_i hne
      have hid := h id o ho
      rw [if_neg]
      · exact hid
      · rintro rfl
        rw [roomId?, hroom] at hid
        exact hne (Option.some.inj hid).symm

theorem openRoom (conn : ConnectionId) (uid : UserId) (settings : RoomSettings) :
    (reg.openRoom conn uid settings).2.Indexed := by
  rcases openRoom_cases reg conn uid settings with ⟨e, heq⟩ | ⟨hnone, -⟩
  · rw [heq]
    exact h
  intro id o ho
  rw [roomId?_openRoom hnone]
  rw [owners_openRoom hnone, Table.get?_insert] at ho
  split at ho
  · cases ho
    rename_i hid
    rw [if_pos rfl, hid]
  · have hid := h id o ho
    rw [if_neg]
    · exact hid
    · rintro rfl
      rw [roomId?, hnone] at hid
      cases hid

theorem logOut (conn : ConnectionId) : (reg.logOut conn).2.Indexed := by
  rcases logOut_cases reg conn with ⟨-, heq⟩ | ⟨a, ha, -⟩
  · rw [heq]
    exact h
  · exact (SameRooms.logOut reg ha).indexed
      (closeRoom (show (reg.withoutAccount conn).Indexed from h) conn)

theorem apply {call : Call} (hkeeps : call.KeepsId) : (call.apply reg).Indexed := by
  have hspared : call.SparesRooms → (call.apply reg).Indexed := fun hcall =>
    (hcall.sameRooms reg).indexed h
  cases call with
  | logOut conn => exact h.logOut conn
  | openRoom conn uid settings => exact h.openRoom conn uid settings
  | closeRoom conn => exact h.closeRoom conn
  | logIn | setSubscription | updateRoom | takeSeat | changeSeat | leaveSeat =>
    exact hspared hkeeps

end Indexed

namespace Findable

variable (h : reg.Findable)

include h

theorem mem_rooms_iff {r : Room} : r ∈ reg.rooms.values ↔ reg.room? r.id = some r := by
  rw [Registry.mem_rooms_iff, room?_eq_some]
  refine exists_congr fun o => ?_
  rw [iff_and_self]
  exact fun hr => h o r.id (by rw [roomId?, hr, Option.map_some])

theorem closeRoom (conn : ConnectionId) : (reg.closeRoom conn).2.Findable := by
  intro o id hid
  rw [roomId?_closeRoom] at hid
  split at hid
  · cases hid
  · rename_i hne
    have ho := h o id hid
    cases hroom : reg.roomOf? conn with
    | none =>
      rcases closeRoom_cases reg conn with ⟨-, heq⟩ | ⟨room, hsome, -⟩
      · rw [heq]
        exact ho
      · cases hroom.symm.trans hsome
    | some room =>
      rw [owners_closeRoom reg conn hroom, Table.get?_erase, if_neg]
      · exact ho
      · rintro rfl
        have hconn := h conn room.id (by rw [roomId?, hroom, Option.map_some])
        exact hne (Option.some.inj (ho.symm.trans hconn))

/-- The next number must be new. -/
theorem openRoom (conn : ConnectionId) (uid : UserId) (settings : RoomSettings)
    (hfresh : ∀ c, reg.roomId? c ≠ some ⟨reg.lastRoomId + 1⟩) :
    (reg.openRoom conn uid settings).2.Findable := by
  rcases openRoom_cases reg conn uid settings with ⟨e, heq⟩ | ⟨hnone, -⟩
  · rw [heq]
    exact h
  intro o id hid
  rw [owners_openRoom hnone, Table.get?_insert]
  rw [roomId?_openRoom hnone] at hid
  split at hid
  · rename_i ho
    cases hid
    rw [if_pos rfl, ho]
  · rw [if_neg]
    · exact h o id hid
    · rintro rfl
      exact hfresh o hid

theorem apply {call : Call} (hkeeps : call.KeepsId)
    (hfresh : ∀ c, reg.roomId? c ≠ some ⟨reg.lastRoomId + 1⟩) :
    (call.apply reg).Findable := by
  have hspared : call.SparesRooms → (call.apply reg).Findable := fun hcall =>
    (hcall.sameRooms reg).findable h
  cases call with
  | logOut conn =>
    show (reg.logOut conn).2.Findable
    rcases logOut_cases reg conn with ⟨-, heq⟩ | ⟨a, ha, -⟩
    · rw [heq]
      exact h
    · exact (SameRooms.logOut reg ha).findable
        (closeRoom (show (reg.withoutAccount conn).Findable from h) conn)
  | openRoom conn uid settings => exact h.openRoom conn uid settings hfresh
  | closeRoom conn => exact h.closeRoom conn
  | logIn | setSubscription | updateRoom | takeSeat | changeSeat | leaveSeat =>
    exact hspared hkeeps

end Findable

end GameLobby.Registry
