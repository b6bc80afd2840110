import GameLobby.Proofs.Registry.Answers
import GameLobby.Proofs.Registry.Footprint
import GameLobby.Proofs.Registry.Ownership
import GameLobby.Proofs.Registry.Seats

/-!
# What a departure leaves

With the account of a connection goes the room that it owns, with the notes of its guests, and its
seat in the room of somebody else. In a coherent registry that is all there is of the connection,
and nothing else changes (`Coherent.purged`).
-/

namespace GameLobby

/-- Somebody who has no seat in a room is not missed there. -/
theorem Room.without_of_not_mem {conn : ConnectionId} (r : Room) (h : conn ∉ r.players) :
    r.without conn = r := by
  have hall : ∀ p ∈ r.players, decide (p ≠ conn) = true := fun p hp =>
    decide_eq_true fun hpc => h (hpc ▸ hp)
  unfold without
  rw [List.filter_eq_self.mpr hall]

namespace Registry

/-- Nothing of connection `conn` is left in `reg'`, and apart from that `reg'` is as `reg` was. -/
structure Purged (conn : ConnectionId) (reg reg' : Registry) : Prop where
  no_account : reg'.account? conn = none
  no_room : reg'.roomOf? conn = none
  no_seat : ∀ o r, reg'.roomOf? o = some r → conn ∉ r.players
  no_entry : ∀ id, reg'.owners.get? id ≠ some conn
  /-- Nobody notes the room that went. -/
  no_note : ∀ room, reg.roomOf? conn = some room →
    ∀ c a, reg'.account? c = some a → a.joinedRoom ≠ some room.id
  account_eq : ∀ c, c ≠ conn → reg'.account? c =
    (reg.account? c).map fun a =>
      if a.joinedRoom = (reg.roomOf? conn).map (·.id) then { a with joinedRoom := none } else a
  room_eq : ∀ o, o ≠ conn → reg'.roomOf? o = (reg.roomOf? o).map (·.without conn)
  owner_eq : ∀ id, reg'.owners.get? id =
    if reg.owners.get? id = some conn then none else reg.owners.get? id
  lastUid_eq : reg'.lastUid = reg.lastUid
  lastRoomId_eq : reg'.lastRoomId = reg.lastRoomId

/-- The room of somebody else in which a connection has a seat. -/
def visited? (reg : Registry) (conn : ConnectionId) : Option Room :=
  (reg.joined? conn).bind reg.room?

namespace Purged

variable {conn : ConnectionId} {reg reg' : Registry}

/-- What there is to be said of accounts, rooms and counters is all. -/
theorem of_eq (hwf : reg.WellFormed) (hwf' : reg'.WellFormed)
    (haccount : ∀ c, reg'.account? c = if c = conn then none else
      (reg.account? c).map fun a =>
        if a.joinedRoom = (reg.roomOf? conn).map (·.id) then { a with joinedRoom := none } else a)
    (hroom : ∀ o, reg'.roomOf? o = if o = conn then none else
      (reg.roomOf? o).map (·.without conn))
    (huid : reg'.lastUid = reg.lastUid) (hid : reg'.lastRoomId = reg.lastRoomId) :
    Purged conn reg reg' := by
  have hnone : reg'.roomOf? conn = none := (hroom conn).trans (if_pos rfl)
  refine ⟨(haccount conn).trans (if_pos rfl), hnone, ?_, ?_, ?_,
    fun c hc => (haccount c).trans (if_neg hc), fun o ho => (hroom o).trans (if_neg ho), ?_,
    huid, hid⟩
  · intro o r hr hseat
    rw [hroom] at hr
    split at hr
    · cases hr
    · obtain ⟨s, -, rfl⟩ := Option.map_eq_some_iff.mp hr
      simp [Room.without] at hseat
  · intro id hentry
    obtain ⟨r, hr, -⟩ := hwf'.owners_iff.mp hentry
    rw [hnone] at hr
    cases hr
  · intro room howned c a ha
    rw [haccount] at ha
    split at ha
    · cases ha
    · obtain ⟨b, -, rfl⟩ := Option.map_eq_some_iff.mp ha
      rw [howned]
      split
      · simp
      · rename_i hother
        exact hother
  · intro id
    ext o
    -- an entry is there exactly if its owner's room is
    have hentry : reg'.owners.get? id = some o ↔ o ≠ conn ∧ reg.owners.get? id = some o := by
      rw [hwf'.owners_iff, hwf.owners_iff, hroom]
      split
      · rename_i ho
        simp [ho]
      · rename_i ho
        refine Iff.trans ?_ (and_iff_right ho).symm
        constructor
        · rintro ⟨_, hmap, hrid⟩
          obtain ⟨r, hr, rfl⟩ := Option.map_eq_some_iff.mp hmap
          exact ⟨r, hr, hrid⟩
        · rintro ⟨r, hr, hrid⟩
          exact ⟨r.without conn, Option.map_eq_some_iff.mpr ⟨r, hr, rfl⟩, hrid⟩
    rw [hentry]
    split
    · rename_i howned
      rw [howned]
      simp [eq_comm]
    · rename_i howned
      constructor
      · exact fun h => h.2
      · intro h
        exact ⟨fun ho => howned (ho ▸ h), h⟩

end Purged

/-- A guest of the room that goes is among its players. -/
theorem WellFormed.forget_eq {reg : Registry} (h : reg.WellFormed) {conn c : ConnectionId}
    {a : Account} (ha : reg.account? c = some a) :
    forget (reg.roomOf? conn) c a =
      if a.joinedRoom = (reg.roomOf? conn).map (·.id) then { a with joinedRoom := none } else a := by
  cases hroom : reg.roomOf? conn with
  | none =>
    rw [Option.map_none]
    split
    · rename_i hj
      cases a
      cases hj
      rfl
    · rfl
  | some room =>
    unfold forget
    by_cases hj : a.joinedRoom = some room.id
    · obtain ⟨r, hr, hseat, -⟩ := h.joined_seat ha hj
      rw [h.room?_of_roomOf? hroom, Option.some.injEq] at hr
      subst hr
      rw [Option.map_some, if_pos hj]
      exact if_pos ⟨hseat, hj⟩
    · rw [Option.map_some, if_neg hj]
      exact if_neg fun hnote => hj hnote.2

namespace Coherent

variable {reg : Registry} (h : reg.Coherent) (conn : ConnectionId)

include h

/-- A connection without an account has nothing in the registry. -/
theorem purged_of_none (hnone : reg.account? conn = none) : Purged conn reg reg := by
  have hnoroom : reg.roomOf? conn = none := by
    refine Option.eq_none_iff_forall_ne_some.mpr fun r hr => ?_
    obtain ⟨a, ha, -⟩ := h.owner_account hr
    rw [hnone] at ha
    exact nomatch ha
  have hnoseat : ∀ {o r}, reg.roomOf? o = some r → conn ∉ r.players := by
    intro o r hr hseat
    have ho : conn ≠ o := by
      rintro rfl
      rw [hnoroom] at hr
      exact nomatch hr
    obtain ⟨a, ha, -⟩ := h.guest_joined hr hseat ho
    rw [hnone] at ha
    exact nomatch ha
  refine .of_eq h.toWellFormed h.toWellFormed (fun c => ?_) (fun o => ?_) rfl rfl
  · split
    · rename_i hc
      exact hc ▸ hnone
    · rw [hnoroom]
      cases reg.account? c with
      | none => rfl
      | some a =>
        rw [Option.map_some]
        split
        · rename_i hj
          exact congrArg some (by cases a; cases hj; rfl)
        · rfl
  · split
    · rename_i ho
      exact ho ▸ hnoroom
    · cases hr : reg.roomOf? o with
      | none => rfl
      | some r =>
        rw [Option.map_some, r.without_of_not_mem (hnoseat hr)]

/-- The account of a connection goes with all that hangs on it. -/
theorem purged_of_some {a : Account} (ha : reg.account? conn = some a) :
    Purged conn reg (reg.logOut conn).2 := by
  refine .of_eq h.toWellFormed (h.toWellFormed.logOut conn) (fun c => ?_) (fun o => ?_)
    (SameAccounts.logOut reg conn).lastUid_eq (lastRoomId_logOut h.toFiled ha)
  · rw [account?_logOut h.toFiled ha]
    split
    · rfl
    · exact Option.map_congr fun b hb => h.forget_eq hb
  · rw [roomOf?_logOut h.toFiled ha]
    split
    · rfl
    · rename_i ho
      refine Option.map_congr fun r hr => ?_
      by_cases hj : a.joinedRoom = some r.id
      · have howner : conn ≠ r.owner := h.owner_eq hr ▸ Ne.symm ho
        rw [if_pos hj, Room.unseat, if_neg howner]
        rfl
      · have hseat : conn ∉ r.players := fun hseat =>
          hj (h.joined_of_guest hr hseat (Ne.symm ho) ha)
        rw [if_neg hj, r.without_of_not_mem hseat]

/-- **Departure.** After a logout nothing is left of the connection and all else is as before. -/
theorem purged : Purged conn reg (reg.logOut conn).2 := by
  rcases logOut_cases reg conn with ⟨hnone, heq⟩ | ⟨a, ha, -⟩
  · rw [heq]
    exact h.purged_of_none conn hnone
  · exact h.purged_of_some conn ha

/-- The room that a connection visits is the only one of somebody else in which it has a seat. -/
theorem visited?_eq_some_iff {room : Room} :
    reg.visited? conn = some room ↔
      ∃ o, o ≠ conn ∧ reg.roomOf? o = some room ∧ conn ∈ room.players := by
  unfold visited? joined?
  constructor
  · intro hv
    obtain ⟨id, hid, hroom⟩ := Option.bind_eq_some_iff.mp hv
    obtain ⟨a, ha, hj⟩ := Option.bind_eq_some_iff.mp hid
    obtain ⟨r, hr, hseat, howner⟩ := h.joined_seat ha hj
    rw [hroom, Option.some.injEq] at hr
    subst hr
    exact ⟨room.owner, howner, h.roomOf?_owner hroom, hseat⟩
  · rintro ⟨o, ho, hr, hseat⟩
    obtain ⟨a, ha, hj⟩ := h.guest_joined hr hseat (Ne.symm ho)
    rw [ha, Option.bind_some, hj, Option.bind_some]
    exact h.room?_of_roomOf? hr

/-- The room that an account leaves is the one it visits, without it. -/
theorem leftRoom_logOut {d : Logout} (hd : (reg.logOut conn).1 = some d) :
    d.leftRoom = (reg.visited? conn).map (·.without conn) := by
  obtain ⟨-, -, hjoined, hstill⟩ := h.toWellFormed.room?_logOut hd
  unfold visited?
  rw [← hjoined]
  cases hleft : d.leftRoom with
  | none => rfl
  | some room =>
    -- it is found afterwards, so it was there before with the seat
    have hpurged := h.purged conn
    have hroom := (h.toWellFormed.logOut conn).roomOf?_owner (hstill room hleft)
    have howner : room.owner ≠ conn := by
      intro ho
      rw [ho, hpurged.no_room] at hroom
      exact nomatch hroom
    rw [hpurged.room_eq _ howner] at hroom
    obtain ⟨r, hr, hwithout⟩ := Option.map_eq_some_iff.mp hroom
    have hid : room.id = r.id := by
      rw [← hwithout]
      rfl
    rw [Option.map_some, Option.bind_some, hid, h.room?_of_roomOf? hr, Option.map_some, hwithout]

/-- What goes with an account. -/
theorem logOut_fst {a : Account} (ha : reg.account? conn = some a) :
    (reg.logOut conn).1 =
      some ⟨a, reg.roomOf? conn, (reg.visited? conn).map (·.without conn)⟩ := by
  rcases logOut_cases reg conn with ⟨hnone, -⟩ | ⟨b, hb, heq, -⟩
  · rw [ha] at hnone
    exact nomatch hnone
  · rw [ha, Option.some.injEq] at hb
    subst hb
    rw [← h.leftRoom_logOut conn heq]
    exact heq

end Coherent

end Registry

end GameLobby
