import GameLobby.Proofs.Registry.Departure
import GameLobby.Proofs.Registry.SeatMoves

/-!
# Visits

In a coherent registry the room that a connection visits is the one that its account has joined, and
it has no seat in any other room of somebody else. So a seat that is given up can be told of every
room alike: the connection is taken out of it, unless it owns it (`Coherent.unseat_joined`). That is
what leaving comes to (`Unseated`), and moving but for the room moved to (`Moved`).
-/

namespace GameLobby.Registry

variable {reg reg' : Registry} {conn : ConnectionId} {room : Room}

/-- The registry `reg'` is `reg` after `conn` gave up its seat in the room of somebody else, if it
had one. -/
def Unseated (conn : ConnectionId) (reg reg' : Registry) : Prop :=
  reg.Edited reg' (fun c a => if c = conn then { a with joinedRoom := none } else a)
    (fun r => if r.owner = conn then r else r.without conn)

/-- Nobody is left in the room of somebody else by a seat given up. -/
theorem Unseated.seat_own (h : Unseated conn reg reg') (hreg : reg.Filed) {o : ConnectionId}
    {r : Room} (hr : reg'.roomOf? o = some r) (hseat : conn ∈ r.players) : o = conn := by
  rw [h.roomOf?_eq] at hr
  obtain ⟨s, hs, rfl⟩ := Option.map_eq_some_iff.mp hr
  split at hseat
  · rename_i howner
    exact (hreg.owner_eq hs).symm.trans howner
  · simp [Room.without] at hseat

/-- The registry `reg'` is `reg` after `conn` took a seat in `room` for the one that it had in the
room of somebody else. The owner of a room has its seat anyway and joins nothing. -/
def Moved (conn : ConnectionId) (room : Room) (reg reg' : Registry) : Prop :=
  reg.Edited reg'
    (fun c a =>
      if c = conn then { a with joinedRoom := if room.owner = conn then none else some room.id }
      else a)
    (fun r =>
      if r.id = room.id then r.seat conn else if r.owner = conn then r else r.without conn)

/-- The room that a move to room `id` leaves, without the connection that moves. -/
def left? (reg : Registry) (id : RoomId) (conn : ConnectionId) : Option Room :=
  ((reg.visited? conn).filter (·.id ≠ id)).map (·.without conn)

/-- A move gives the seat. -/
theorem Moved.room?_eq (h : Moved conn room reg reg') (hroom : reg.room? room.id = some room) :
    reg'.room? room.id = some (room.seat conn) := by
  rw [Edited.room?_eq h, hroom, Option.map_some, if_pos rfl]

/-- A move leaves a connection no seat but the new one and those that it has as an owner. -/
theorem Moved.seat_own (h : Moved conn room reg reg') (hreg : reg.Filed) {o : ConnectionId}
    {r : Room} (hr : reg'.roomOf? o = some r) (hseat : conn ∈ r.players) :
    o = conn ∨ r.id = room.id := by
  rw [h.roomOf?_eq] at hr
  obtain ⟨s, hs, rfl⟩ := Option.map_eq_some_iff.mp hr
  split at hseat
  · rename_i hid
    rw [if_pos hid, Room.id_seat]
    exact .inr hid
  split at hseat
  · rename_i howner
    exact .inl ((hreg.owner_eq hs).symm.trans howner)
  · simp [Room.without] at hseat

namespace Coherent

variable (h : reg.Coherent)

include h

/-- A room that is closed is not the one that its owner visits. -/
theorem visited?_closeRoom (conn : ConnectionId) :
    (reg.closeRoom conn).2.visited? conn = reg.visited? conn := by
  ext r
  rw [(h.closeRoom conn).visited?_eq_some_iff, h.visited?_eq_some_iff]
  refine exists_congr fun o => and_congr_right fun ho => ?_
  rw [roomOf?_closeRoom, if_neg ho]

/-- The room that a connection visits is the one that its account has joined. -/
theorem joined?_of_visited? (hv : reg.visited? conn = some room) :
    reg.joined? conn = some room.id ∧ reg.room? room.id = some room := by
  obtain ⟨id, hj, hroom⟩ := Option.bind_eq_some_iff.mp hv
  rw [h.id_of_room? hroom]
  exact ⟨hj, hroom⟩

/-- Whoever visits no room has joined none. -/
theorem joined?_of_visited?_none (hv : reg.visited? conn = none) : reg.joined? conn = none := by
  cases hj : reg.joined? conn with
  | none => rfl
  | some id =>
    obtain ⟨a, ha, hnote⟩ := Option.bind_eq_some_iff.mp hj
    obtain ⟨r, hr, -⟩ := h.joined_seat ha hnote
    rw [visited?, hj, Option.bind_some, hr] at hv
    exact nomatch hv

/-- The seat in the room joined is the only one in a room of somebody else. -/
theorem unseat_joined {o : ConnectionId} {r : Room} (hr : reg.roomOf? o = some r) :
    (if reg.joined? conn = some r.id then r.unseat conn else r) =
      if r.owner = conn then r else r.without conn := by
  by_cases howner : r.owner = conn
  · rw [if_pos howner, Room.unseat, if_pos howner.symm, ite_self]
  · rw [if_neg howner]
    split
    · exact if_neg (Ne.symm howner)
    · rename_i hj
      refine (r.without_of_not_mem fun hseat => hj ?_).symm
      obtain ⟨a, ha, hnote⟩ := h.guest_joined hr hseat fun hc => howner (h.owner_eq hr ▸ hc.symm)
      rw [joined?_eq ha, hnote]

/-- A connection that visits no room has no seat to give up. -/
theorem unseated_of_none (hv : reg.visited? conn = none) : Unseated conn reg reg := by
  have hj := h.joined?_of_visited?_none hv
  refine (Edited.refl reg).congr (fun c a ha => ?_) fun o r hr => ?_
  · by_cases hc : c = conn
    · subst hc
      rw [joined?_eq ha] at hj
      rw [if_pos rfl, ← hj]
    · rw [if_neg hc]
  · rw [← h.unseat_joined hr, hj]
    exact (if_neg (Option.some_ne_none _).symm).symm

/-- The room that a connection visits can be left. -/
theorem leaveSeat_visited (hv : reg.visited? conn = some room) :
    (reg.leaveSeat room.id conn).1 = .ok (room.without conn) ∧
      Unseated conn reg (reg.leaveSeat room.id conn).2 := by
  obtain ⟨hj, hfound⟩ := h.joined?_of_visited? hv
  obtain ⟨o, ho, hr, hseat⟩ := (h.visited?_eq_some_iff conn).mp hv
  have howner : room.owner ≠ conn := h.owner_eq hr ▸ ho
  obtain ⟨hanswer, hleft⟩ := h.leaveSeat_edited hfound howner hseat
  refine ⟨hanswer.trans (congrArg Except.ok (if_neg (Ne.symm howner))),
    hleft.congr (fun c a ha => ?_) fun o r hr => ?_⟩
  · by_cases hc : c = conn
    · subst hc
      rw [joined?_eq ha] at hj
      rw [if_pos ⟨rfl, hj⟩, if_pos rfl]
    · rw [if_neg fun hnote => hc hnote.1, if_neg hc]
  · rw [← h.unseat_joined hr, hj]
    simp only [Option.some.injEq, eq_comm]

/-- Somebody has a seat in the room of somebody else exactly if it visits a room. -/
theorem exists_seat_iff (conn : ConnectionId) :
    (∃ r ∈ reg.rooms.values, r.owner ≠ conn ∧ conn ∈ r.players) ↔
      ∃ r, reg.visited? conn = some r := by
  refine exists_congr fun r => ?_
  rw [h.visited?_eq_some_iff]
  constructor
  · rintro ⟨hr, howner, hseat⟩
    exact ⟨r.owner, howner, h.roomOf?_owner (h.room?_of_mem hr), hseat⟩
  · rintro ⟨o, ho, hr, hseat⟩
    exact ⟨(mem_rooms_iff reg).mpr ⟨o, hr⟩, h.owner_eq hr ▸ ho, hseat⟩

/-- A move gives up the seat in the room visited, if it goes to another one. -/
theorem changeSeat_visited {id : RoomId} (hroom : reg.room? id = some room)
    (hadmits : Admits room conn) :
    (reg.changeSeat id conn).1 = .ok ⟨room.seat conn, reg.left? id conn⟩ ∧
      Moved conn room reg (reg.changeSeat id conn).2 := by
  obtain ⟨hanswer, hmoved⟩ := h.changeSeat_edited hroom hadmits
  obtain rfl : room.id = id := h.id_of_room? hroom
  refine ⟨hanswer.trans ?_, hmoved.congr (fun _ _ _ => rfl) fun o r hr => ?_⟩
  · unfold left?
    cases hv : reg.visited? conn with
    | none => rw [h.joined?_of_visited?_none hv]; rfl
    | some left =>
      obtain ⟨hj, hfound⟩ := h.joined?_of_visited? hv
      obtain ⟨o, ho, hr, -⟩ := (h.visited?_eq_some_iff conn).mp hv
      have hunseat : left.unseat conn = left.without conn := if_neg (h.owner_eq hr ▸ Ne.symm ho)
      rw [hj, Option.filter_some, Option.filter_some]
      by_cases hid : left.id = room.id
      · simp [hid]
      · simp [hid, hfound, hunseat]
  · rw [h.unseat_joined hr]

end Coherent

end GameLobby.Registry
