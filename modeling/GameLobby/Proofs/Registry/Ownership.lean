import GameLobby.Proofs.Registry.Preservation

/-!
# What a call leaves to others

`Registry.Spares conn` says what calls on behalf of one connection leave alone: the rooms of the
others but for the seat of that connection, and their accounts but for the note of a room that goes.
A room that is gone does not come back under its number. Every call spares the others
(`WellFormed.apply_spares`), and so does one call after the other.
-/

namespace GameLobby.Registry

/-- Room `id` was there once and is not there any more. -/
def Gone (reg : Registry) (id : RoomId) : Prop :=
  reg.room? id = none ∧ id.number ≤ reg.lastRoomId

/-- From `reg` to `reg'` nothing changes that belongs to others than `conn`: their rooms stay but
for a seat of `conn`, nobody else comes or goes, and accounts stay but for the note of a room that
is gone afterwards. -/
structure Spares (conn : ConnectionId) (reg reg' : Registry) : Prop where
  room_eq : ∀ {o}, o ≠ conn →
    (reg'.roomOf? o).map (·.without conn) = (reg.roomOf? o).map (·.without conn)
  account_none : ∀ {c}, c ≠ conn → reg.account? c = none → reg'.account? c = none
  account_some : ∀ {c a}, c ≠ conn → reg.account? c = some a →
    ∃ j, (j = a.joinedRoom ∨ j = none ∧ ∃ id, a.joinedRoom = some id ∧ reg'.Gone id) ∧
      reg'.account? c = some { a with joinedRoom := j }
  gone : ∀ {id}, reg.Gone id → reg'.Gone id

namespace Spares

variable {conn : ConnectionId} {reg reg' reg'' : Registry}

theorem refl (conn : ConnectionId) (reg : Registry) : Spares conn reg reg :=
  ⟨fun _ => rfl, fun _ h => h, fun _ h => ⟨_, .inl rfl, h⟩, fun h => h⟩

theorem trans (h : Spares conn reg reg') (h' : Spares conn reg' reg'') : Spares conn reg reg'' where
  room_eq ho := (h'.room_eq ho).trans (h.room_eq ho)
  account_none hc ha := h'.account_none hc (h.account_none hc ha)
  account_some hc ha := by
    obtain ⟨j, hj, ha'⟩ := h.account_some hc ha
    obtain ⟨k, hk, ha''⟩ := h'.account_some hc ha'
    refine ⟨k, ?_, ha''⟩
    rcases hj with rfl | ⟨rfl, id, hid, hgone⟩
    · exact hk
    · -- the note was lost already, and the room stays gone
      refine .inr ⟨?_, id, hid, h'.gone hgone⟩
      rcases hk with hk | ⟨hk, -⟩ <;> exact hk
  gone hid := h'.gone (h.gone hid)

/-- A change in place of one account and of seats. -/
theorem of_edited {f : ConnectionId → Account → Account} {g : Room → Room}
    (he : reg.Edited reg' f g) (hf : ∀ {c a}, c ≠ conn → f c a = a)
    (hg : ∀ {o r}, o ≠ conn → reg.roomOf? o = some r → (g r).without conn = r.without conn) :
    Spares conn reg reg' where
  room_eq {o} ho := by
    rw [he.roomOf?_eq, Option.map_map]
    exact Option.map_congr fun r hr => hg ho hr
  account_none hc ha := by rw [he.account?_eq, ha]; rfl
  account_some {c a} hc ha := by
    refine ⟨a.joinedRoom, .inl rfl, ?_⟩
    rw [he.account?_eq, ha, Option.map_some, hf hc]
  gone {id} hid := by
    refine ⟨?_, he.lastRoomId_eq ▸ hid.2⟩
    rw [he.room?_eq, hid.1]
    rfl

/-- The room of `conn` goes, and with it its guests' notes. -/
theorem of_forget (lost : Option Room)
    (hroom : ∀ {o}, o ≠ conn →
      (reg'.roomOf? o).map (·.without conn) = (reg.roomOf? o).map (·.without conn))
    (hacc : ∀ {c}, c ≠ conn → reg'.account? c = (reg.account? c).map (forget lost c))
    (hlost : ∀ {r}, lost = some r → reg'.Gone r.id)
    (hgone : ∀ {id}, reg.Gone id → reg'.Gone id) : Spares conn reg reg' where
  room_eq := hroom
  account_none hc ha := by rw [hacc hc, ha]; rfl
  account_some {c a} hc ha := by
    rw [hacc hc, ha, Option.map_some]
    unfold forget
    split
    · exact ⟨_, .inl rfl, rfl⟩
    · split
      · rename_i room hnote
        exact ⟨_, .inr ⟨rfl, room.id, hnote.2, hlost rfl⟩, rfl⟩
      · exact ⟨_, .inl rfl, rfl⟩
  gone := hgone

end Spares

theorem lastRoomId_logOut {reg : Registry} (h : reg.Filed) {conn : ConnectionId} {a : Account}
    (ha : reg.account? conn = some a) : (reg.logOut conn).2.lastRoomId = reg.lastRoomId :=
  (logOut_edited h ha).lastRoomId_eq.trans lastRoomId_closeRoom

theorem room?_logOut_of_none {reg : Registry} (h : reg.Filed) {conn : ConnectionId} {a : Account}
    (ha : reg.account? conn = some a) {id : RoomId}
    (hid : (reg.roomOf? conn).map (·.id) = some id ∨ reg.room? id = none) :
    (reg.logOut conn).2.room? id = none := by
  rw [(logOut_edited h ha).room?_eq, room?_closeRoom (withoutAccount_filed h conn)]
  show Option.map _ (if (reg.roomOf? conn).map (·.id) = some id then none else reg.room? id) = none
  split
  · rfl
  · rename_i hne
    rw [hid.resolve_left hne]
    rfl

/-- **Ownership.** A call changes nothing that belongs to others. -/
theorem WellFormed.apply_spares {reg : Registry} (h : reg.WellFormed) (hn : reg.NumbersLeft)
    (call : Call) : Spares call.conn reg (call.apply reg) := by
  cases call with
  | logIn conn name outbox =>
    show Spares conn reg (reg.logIn conn name outbox).2
    rcases logIn_cases reg conn name outbox with ⟨e, heq⟩ | ⟨_, heq⟩
    · rw [heq]
      exact .refl conn reg
    · rw [heq]
      refine Spares.of_forget none (fun _ => rfl) (fun {c} hc => ?_) nofun fun hid => hid
      show (reg.accounts.insert conn _).get? c = (reg.account? c).map fun a => a
      rw [Table.get?_insert_of_ne _ _ hc, Option.map_id']
      rfl
  | logOut conn =>
    show Spares conn reg (reg.logOut conn).2
    rcases logOut_cases reg conn with ⟨_, heq⟩ | ⟨a, ha, _⟩
    · rw [heq]
      exact .refl conn reg
    have hlast := lastRoomId_logOut h.toFiled ha
    refine Spares.of_forget (reg.roomOf? conn) (fun {o} ho => ?_) (fun {c} hc => ?_)
      (fun {r} hr => ?_) fun {id} hid => ?_
    · rw [roomOf?_logOut h.toFiled ha, if_neg ho, Option.map_map]
      refine Option.map_congr fun r _ => ?_
      show (if a.joinedRoom = some r.id then r.unseat conn else r).without conn = _
      split
      · exact Room.without_unseat conn r
      · rfl
    · rw [account?_logOut h.toFiled ha, if_neg hc]
    · exact ⟨room?_logOut_of_none h.toFiled ha (.inl (by rw [hr]; rfl)), hlast ▸ h.id_le hr⟩
    · exact ⟨room?_logOut_of_none h.toFiled ha (.inr hid.1), hlast ▸ hid.2⟩
  | setSubscription conn t on =>
    exact .of_edited (setSubscription_edited reg conn t on) (fun hc => if_neg hc) fun _ _ => rfl
  | openRoom conn ownerUid settings =>
    show Spares conn reg (reg.openRoom conn ownerUid settings).2
    rcases openRoom_cases reg conn ownerUid settings with ⟨e, heq⟩ | ⟨hnone, heq⟩
    · rw [heq]
      exact .refl conn reg
    refine Spares.of_forget none (fun {o} ho => ?_) (fun {c} _ => ?_) nofun
      fun {id} hid => ?_
    · rw [WellFormed.roomOf?_openRoom conn ownerUid settings hnone, if_neg ho]
    · rw [heq]
      exact Option.map_id'.symm
    · -- the number of the new room is larger than any that was given before
      have hle := UInt32.le_iff_toNat_le.mp hid.2
      have hlast : (reg.openRoom conn ownerUid settings).2.lastRoomId = reg.lastRoomId + 1 := by
        rw [heq]
      have hne : id ≠ ⟨reg.lastRoomId + 1⟩ := by
        rintro rfl
        rw [hn.toNat_nextRoomId] at hle
        omega
      refine ⟨by rw [h.room?_openRoom conn ownerUid settings hnone, if_neg hne, hid.1], ?_⟩
      rw [UInt32.le_iff_toNat_le, hlast, hn.toNat_nextRoomId]
      omega
  | closeRoom conn =>
    have hlast : (reg.closeRoom conn).2.lastRoomId = reg.lastRoomId := lastRoomId_closeRoom
    refine Spares.of_forget (reg.roomOf? conn) (fun {o} ho => ?_)
      (fun {c} _ => account?_closeRoom reg conn c) (fun {r} hr => ⟨?_, ?_⟩) fun {id} hid => ⟨?_, ?_⟩
    · exact congrArg _ ((roomOf?_closeRoom reg conn o).trans (if_neg ho))
    · exact (room?_closeRoom h.toFiled conn r.id).trans (if_pos (by rw [hr]; rfl))
    · exact hlast ▸ h.id_le hr
    · refine (room?_closeRoom h.toFiled conn id).trans ?_
      rw [hid.1, ite_self]
    · exact hlast ▸ hid.2
  | updateRoom conn edit =>
    refine .of_edited (h.updateRoom_edited conn edit) (fun _ => rfl) fun {o r} ho hr => ?_
    have hne : r.owner ≠ conn := fun howner => ho ((h.owner_eq hr).symm.trans howner)
    exact congrArg _ (if_neg hne)
  | takeSeat id conn =>
    show Spares conn reg (reg.takeSeat id conn).2
    rcases h.takeSeat_cases id conn with ⟨e, heq⟩ | ⟨room, _, _, _, he⟩
    · rw [heq]
      exact .refl conn reg
    · refine .of_edited he (fun hc => if_neg fun hcc => hc hcc.1) fun {o r} _ _ => ?_
      split
      · exact Room.without_seat conn r
      · rfl
  | changeSeat id conn =>
    show Spares conn reg (reg.changeSeat id conn).2
    rcases h.changeSeat_cases id conn with ⟨e, heq⟩ | ⟨room, _, _, _, he⟩
    · rw [heq]
      exact .refl conn reg
    · refine .of_edited he (fun hc => if_neg hc) fun {o r} _ _ => ?_
      split
      · exact Room.without_seat conn r
      · split
        · exact Room.without_unseat conn r
        · rfl
  | leaveSeat id conn =>
    show Spares conn reg (reg.leaveSeat id conn).2
    rcases h.leaveSeat_cases id conn with ⟨e, heq⟩ | ⟨room, _, _, _, _, he⟩
    · rw [heq]
      exact .refl conn reg
    · refine .of_edited he (fun hc => if_neg fun hcc => hc hcc.1) fun {o r} _ _ => ?_
      split
      · exact Room.without_unseat conn r
      · rfl

end GameLobby.Registry
