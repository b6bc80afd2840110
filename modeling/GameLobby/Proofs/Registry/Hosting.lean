import GameLobby.Proofs.Registry.Visits

/-!
# Rooms closed and opened

When a room is closed its guests lose their notes of it and nothing else changes, and an edit before
that makes no difference (`Coherent.dissolved`, `closeRoom_editRoom`). Whoever offers a room closes
the one it has first and gives up its seat in the room of somebody else. Whichever of the two there
is, the registry comes to the same (`Coherent.hosted`).
-/

namespace GameLobby.Registry

variable {reg reg' : Registry} {conn : ConnectionId} {room : Room}

/-! ## A room that is closed -/

/-- `reg'` is `reg` without `room`, of which nobody has a note any more. -/
structure Dissolved (room : Room) (reg reg' : Registry) : Prop where
  not_found : reg'.room? room.id = none
  room_eq : ∀ o, reg'.roomOf? o = if o = room.owner then none else reg.roomOf? o
  owner_eq : ∀ id, reg'.owners.get? id = if id = room.id then none else reg.owners.get? id
  account_eq : ∀ c, reg'.account? c =
    (reg.account? c).map fun a =>
      if a.joinedRoom = some room.id then { a with joinedRoom := none } else a
  /-- The guests, who are logged in, had a note of the room. -/
  guest : ∀ c ∈ room.players, c ≠ room.owner → ∃ a, reg.account? c = some a ∧
    a.joinedRoom = some room.id ∧ reg'.account? c = some { a with joinedRoom := none }
  /-- The owner, who may be a guest elsewhere, had none. -/
  owner_account : reg'.account? room.owner = reg.account? room.owner
  lastUid_eq : reg'.lastUid = reg.lastUid
  lastRoomId_eq : reg'.lastRoomId = reg.lastRoomId

/-- An edit before a room is closed makes no difference. -/
theorem closeRoom_editRoom (hroom : reg.roomOf? conn = some room) (edit : Listing → Listing) :
    ((reg.editRoom conn edit).2.closeRoom conn).2 = (reg.closeRoom conn).2 := by
  let g : Room → Room := .relist edit
  have hedited : (reg.modifyRoom conn g).roomOf? conn = some (g room) := by
    rw [roomOf?_modifyRoom, hroom, Option.map_some, if_pos rfl]
  have herased : (reg.modifyRoom conn g).rooms.erase conn = reg.rooms.erase conn :=
    Table.erase_modify ..
  rw [editRoom_of_room hroom]
  show ((reg.modifyRoom conn g).closeRoom conn).2 = _
  rcases closeRoom_cases (reg.modifyRoom conn g) conn with ⟨hnone, -⟩ | ⟨s, hs, heq⟩
  · rw [hedited] at hnone
    exact nomatch hnone
  rcases closeRoom_cases reg conn with ⟨hnone, -⟩ | ⟨r, hr, heq'⟩
  · rw [hroom] at hnone
    exact nomatch hnone
  rw [hedited, Option.some.injEq] at hs
  rw [hroom, Option.some.injEq] at hr
  rw [heq, heq', herased, ← hs, ← hr]
  rfl

namespace Coherent

variable (h : reg.Coherent)

include h

theorem dissolved (hroom : reg.roomOf? conn = some room) :
    Dissolved room reg (reg.closeRoom conn).2 := by
  obtain rfl : room.owner = conn := h.owner_eq hroom
  have haccount : ∀ c, (reg.closeRoom room.owner).2.account? c =
      (reg.account? c).map fun a =>
        if a.joinedRoom = some room.id then { a with joinedRoom := none } else a := by
    intro c
    rw [account?_closeRoom]
    refine Option.map_congr fun a ha => ?_
    rw [h.forget_eq ha, hroom, Option.map_some]
  refine ⟨?_, roomOf?_closeRoom reg room.owner, ?_, haccount, ?_, ?_,
    (SameAccounts.closeRoom reg room.owner).lastUid_eq, lastRoomId_closeRoom⟩
  · rw [room?_closeRoom h.toFiled, hroom]
    exact if_pos rfl
  · intro id
    rcases closeRoom_cases reg room.owner with ⟨hnone, -⟩ | ⟨r, hr, heq⟩
    · rw [hroom] at hnone
      exact nomatch hnone
    · rw [hroom, Option.some.injEq] at hr
      rw [heq, ← hr]
      exact Table.get?_erase reg.owners room.id id
  · intro c hc hne
    obtain ⟨a, ha, hj⟩ := h.guest_joined hroom hc hne
    exact ⟨a, ha, hj, by rw [haccount, ha, Option.map_some, if_pos hj]⟩
  · obtain ⟨a, ha, -⟩ := h.owner_account hroom
    have hother : a.joinedRoom ≠ some room.id := by
      intro hj
      obtain ⟨r, hr, -, hne⟩ := h.joined_seat ha hj
      rw [h.room?_of_roomOf? hroom, Option.some.injEq] at hr
      exact hne (hr ▸ rfl)
    rw [haccount, ha, Option.map_some, if_neg hother]

end Coherent

/-! ## A room that is opened -/

/-- The registry `reg'` is `reg` after `conn` has offered `room` in the place of the room that it
owned and of its seat in the room of somebody else. -/
structure Hosted (conn : ConnectionId) (room : Room) (reg reg' : Registry) : Prop where
  room_eq : ∀ o, reg'.roomOf? o =
    if o = conn then some room else (reg.roomOf? o).map (·.without conn)
  found_eq : ∀ id, reg'.room? id =
    if id = room.id then some room
    else if (reg.roomOf? conn).map (·.id) = some id then none
    else (reg.room? id).map (·.without conn)
  account_eq : ∀ c, reg'.account? c =
    (reg.account? c).map fun a =>
      if c = conn ∨ a.joinedRoom = (reg.roomOf? conn).map (·.id) then { a with joinedRoom := none }
      else a
  lastUid_eq : reg'.lastUid = reg.lastUid
  lastRoomId_eq : reg'.lastRoomId = reg.lastRoomId + 1

namespace Hosted

variable (h : Hosted conn room reg reg')

include h

/-- The host has a seat in its own room and in no other. -/
theorem seat_own {o : ConnectionId} {r : Room} (hr : reg'.roomOf? o = some r)
    (hseat : conn ∈ r.players) : r = room := by
  rw [h.room_eq] at hr
  split at hr
  · exact (Option.some.inj hr).symm
  · obtain ⟨s, -, rfl⟩ := Option.map_eq_some_iff.mp hr
    simp [Room.without] at hseat

/-- The host owns no other room. -/
theorem owns_one (hco : reg.Coherent) {o : ConnectionId} {r : Room} (hr : reg'.roomOf? o = some r)
    (howner : r.owner = conn) : r = room := by
  rw [h.room_eq] at hr
  split at hr
  · exact (Option.some.inj hr).symm
  · rename_i ho
    obtain ⟨s, hs, rfl⟩ := Option.map_eq_some_iff.mp hr
    exact absurd ((hco.owner_eq hs).symm.trans howner) ho

variable {old : Room} (hold : reg.roomOf? conn = some old)

include hold

/-- The room that the host had before is not found any more. -/
theorem not_found (hne : old.id ≠ room.id) : reg'.room? old.id = none := by
  rw [h.found_eq, if_neg hne, hold]
  exact if_pos rfl

/-- Nobody notes the room that the host had before. -/
theorem no_note {c : ConnectionId} {a : Account} (ha : reg'.account? c = some a) :
    a.joinedRoom ≠ some old.id := by
  rw [h.account_eq, hold] at ha
  obtain ⟨b, -, rfl⟩ := Option.map_eq_some_iff.mp ha
  split
  · simp
  · rename_i hkept
    exact fun hj => hkept (.inr hj)

/-- The players of the room that the host had before have joined none. -/
theorem players_released (hco : reg.Coherent) {p : ConnectionId} (hp : p ∈ old.players) :
    ∃ b, reg'.account? p = some b ∧ b.joinedRoom = none := by
  have hmem : old ∈ reg.rooms.values := (mem_rooms_iff reg).mpr ⟨conn, hold⟩
  rcases (hco.mem_players_iff hmem p).mp hp with rfl | ⟨a, ha, hj⟩
  · obtain ⟨a, ha, -⟩ := hco.owner_account hold
    rw [hco.owner_eq hold, h.account_eq, ha, Option.map_some, if_pos (.inl rfl)]
    exact ⟨_, rfl, rfl⟩
  · rw [h.account_eq, ha, hold, Option.map_some, if_pos (.inr hj)]
    exact ⟨_, rfl, rfl⟩

end Hosted

/-- **Hosting.** A room closed, a seat given up and a room opened come to the same registry,
whichever of the room and the seat there were. -/
theorem Coherent.hosted (h : reg.Coherent) {left : Registry} (hleft : left.WellFormed)
    (hunseated : Unseated conn (reg.closeRoom conn).2 left) (uid : UserId)
    (settings : RoomSettings) :
    Hosted conn (.opened ⟨reg.lastRoomId + 1⟩ conn uid settings) reg
      (left.openRoom conn uid settings).2 := by
  have hnone : left.roomOf? conn = none := by
    rw [hunseated.roomOf?_eq, roomOf?_closeRoom, if_pos rfl]
    rfl
  have hlast : left.lastRoomId = reg.lastRoomId :=
    hunseated.lastRoomId_eq.trans lastRoomId_closeRoom
  obtain ⟨-, hopened⟩ := (openRoom_cases left conn uid settings).resolve_left (by
    rintro ⟨e, he⟩
    exact nomatch (congrArg Prod.fst he).symm.trans (openRoom_of_none hnone))
  rw [← hlast]
  refine ⟨fun o => ?_, fun id => ?_, fun c => ?_, ?_, ?_⟩
  · rw [WellFormed.roomOf?_openRoom conn uid settings hnone, hunseated.roomOf?_eq,
      roomOf?_closeRoom]
    by_cases ho : o = conn
    · rw [if_pos ho, if_pos ho]
    · rw [if_neg ho, if_neg ho, if_neg ho]
      refine Option.map_congr fun r hr => ?_
      rw [if_neg (h.owner_eq hr ▸ ho)]
  · have hid : (Room.opened ⟨left.lastRoomId + 1⟩ conn uid settings).id =
        ⟨left.lastRoomId + 1⟩ := rfl
    rw [hleft.room?_openRoom conn uid settings hnone, hunseated.room?_eq, room?_closeRoom h.toFiled,
      hid]
    split
    · rfl
    split
    · rfl
    rename_i hother
    refine Option.map_congr fun r hr => if_neg fun howner => hother ?_
    rw [← howner, h.roomOf?_owner hr, Option.map_some, h.id_of_room? hr]
  · have hsame : (left.openRoom conn uid settings).2.account? c = left.account? c := by
      rw [hopened]
      rfl
    rw [hsame, hunseated.account?_eq, account?_closeRoom, Option.map_map]
    refine Option.map_congr fun a ha => ?_
    rw [Function.comp_apply, h.forget_eq ha]
    by_cases hc : c = conn <;> by_cases hj : a.joinedRoom = (reg.roomOf? conn).map (·.id) <;>
      simp [hc, hj]
  · rw [hopened]
    exact hunseated.lastUid_eq.trans (SameAccounts.closeRoom reg conn).lastUid_eq
  · rw [hopened, ← hlast]

end GameLobby.Registry
