import GameLobby.Proofs.Registry.Preservation

/-!
# What calls answer

The rooms in an answer are the rooms as the registry has them after the call, and between them they
are all the rooms that the call touched. A user who has joined a room can leave it.
-/

namespace GameLobby.Registry

variable {reg : Registry} {conn : ConnectionId}

/-! ## Seats given up -/

theorem Filed.room?_leaveSeat (h : reg.Filed) {id : RoomId} {room : Room}
    (hok : (reg.leaveSeat id conn).1 = .ok room) :
    room.id = id ∧ (reg.leaveSeat id conn).2.room? id = some room := by
  rcases h.leaveSeat_cases id conn with ⟨e, heq⟩ | ⟨r, hr, -, -, hanswer, he⟩
  · rw [heq] at hok
    exact nomatch hok
  · rw [hanswer] at hok
    cases hok
    have hid := h.id_of_room? hr
    refine ⟨(Room.id_unseat conn r).trans hid, ?_⟩
    rw [he.room?_eq, hr, Option.map_some, if_pos hid]

theorem WellFormed.leaveSeat_joined (h : reg.WellFormed) {id : RoomId}
    (hj : reg.joined? conn = some id) : ∃ room, (reg.leaveSeat id conn).1 = .ok room := by
  obtain ⟨a, ha, hnote⟩ := Option.bind_eq_some_iff.mp hj
  obtain ⟨r, hr, hseat, howner⟩ := h.joined_seat ha hnote
  refine ⟨r.unseat conn, ?_⟩
  unfold Registry.leaveSeat
  rw [hr]
  dsimp only
  rw [if_neg howner, if_pos (Room.hasSeat_iff.mpr hseat)]

/-! ## Seats changed -/

theorem WellFormed.room?_changeSeat (h : reg.WellFormed) {id : RoomId} {change : SeatChange}
    (hok : (reg.changeSeat id conn).1 = .ok change) :
    (change.entered.id = id ∧ (reg.changeSeat id conn).2.room? id = some change.entered) ∧
      match change.left with
      | none => reg.joined? conn = none ∨ reg.joined? conn = some id
      | some room => room.id ≠ id ∧ reg.joined? conn = some room.id ∧
          (reg.changeSeat id conn).2.room? room.id = some room := by
  rcases h.changeSeat_cases id conn with ⟨e, heq⟩ | ⟨r, hr, -, hanswer, he⟩
  · rw [heq] at hok
    exact nomatch hok
  rw [hanswer] at hok
  cases hok
  have hid := h.id_of_room? hr
  refine ⟨⟨(Room.id_seat conn r).trans hid, ?_⟩, ?_⟩
  · rw [he.room?_eq, hr, Option.map_some, if_pos hid]
  cases hj : reg.joined? conn with
  | none => exact .inl rfl
  | some p =>
    by_cases hp : p = id
    · subst hp
      have hleft : (some p).filter (· ≠ p) = none := by simp [Option.filter]
      rw [hleft]
      exact .inr rfl
    · -- the room joined before is there, and it is another one
      obtain ⟨a, ha, hnote⟩ := Option.bind_eq_some_iff.mp hj
      obtain ⟨s, hs, -, -⟩ := h.joined_seat ha hnote
      have hsid := h.id_of_room? hs
      have hleft : ((some p).filter (· ≠ id)).bind
          (fun p => (reg.room? p).map (·.unseat conn)) = some (s.unseat conn) := by
        simp [Option.filter, hp, hs]
      rw [hleft]
      dsimp only
      rw [Room.id_unseat, hsid]
      refine ⟨hp, rfl, ?_⟩
      rw [he.room?_eq, hs, Option.map_some, hsid, if_neg hp, if_pos hj]

/-! ## Rooms edited -/

theorem Filed.room?_editRoom (h : reg.Filed) {room : Room} (hr : reg.roomOf? conn = some room)
    (edit : Listing → Listing) :
    (reg.editRoom conn edit).2.room? room.id =
      some (room.relist edit) := by
  rw [editRoom, (h.updateRoom_edited conn _).room?_eq, h.room?_of_roomOf? hr, Option.map_some,
    if_pos (h.owner_eq hr)]

/-! ## Leaving -/

theorem WellFormed.room?_logOut (h : reg.WellFormed) {d : Logout}
    (hd : (reg.logOut conn).1 = some d) :
    d.ownedRoom = reg.roomOf? conn ∧
      (∀ room, d.ownedRoom = some room → (reg.logOut conn).2.room? room.id = none) ∧
      d.leftRoom.map (·.id) = reg.joined? conn ∧
      ∀ room, d.leftRoom = some room → (reg.logOut conn).2.room? room.id = some room := by
  rcases logOut_cases reg conn with ⟨-, heq⟩ | ⟨a, ha, hanswer, -⟩
  · rw [heq] at hd
    cases hd
  rw [hanswer, Option.some.injEq] at hd
  subst hd
  have he := logOut_edited h.toFiled ha
  have hclosed := room?_closeRoom (withoutAccount_filed h.toFiled conn) conn
  have hj : reg.joined? conn = a.joinedRoom := by
    rw [joined?, ha]
    rfl
  refine ⟨rfl, fun room hroom => ?_, ?_⟩
  · have hroom : reg.roomOf? conn = some room := hroom
    rw [he.room?_eq, hclosed room.id]
    show Option.map _ (if (reg.roomOf? conn).map (·.id) = some room.id then none else _) = none
    rw [hroom]
    simp
  rw [hj]
  cases hnote : a.joinedRoom with
  | none =>
    refine ⟨rfl, fun room hroom => ?_⟩
    cases hroom
  | some p =>
    obtain ⟨s, hs, -, howner⟩ := h.joined_seat ha hnote
    have hsid := h.id_of_room? hs
    -- the joined room is not the one that goes with its owner
    have hother : (reg.roomOf? conn).map (·.id) ≠ some p := by
      intro hown
      obtain ⟨r, hr, hrid⟩ := Option.map_eq_some_iff.mp hown
      have hsame := h.room?_of_roomOf? hr
      rw [hrid, hs, Option.some.injEq] at hsame
      exact howner (hsame ▸ h.owner_eq hr)
    have hstill : ((reg.withoutAccount conn).closeRoom conn).2.room? p = some s := by
      rw [hclosed p]
      exact (if_neg hother).trans hs
    have hleft : (some p).bind (fun id =>
        (((reg.withoutAccount conn).closeRoom conn).2.room? id).map (·.unseat conn)) =
          some (s.unseat conn) := by
      rw [Option.bind_some, hstill]
      rfl
    dsimp only
    rw [hleft]
    refine ⟨by rw [Option.map_some, Room.id_unseat, hsid], fun room hroom => ?_⟩
    cases hroom
    rw [Room.id_unseat, hsid, he.room?_eq, hstill, Option.map_some, hsid, if_pos hnote]

end GameLobby.Registry
