import GameLobby.Proofs.Message.Size
import GameLobby.Proofs.Registry.Effects

/-!
# Settings that fit

A room can be shown as long as its settings fit (`Room.fits_snapshot_iff`). Settings come into a
registry with a new room and with an edit of the owner, and no other call touches them, so if those
fit then so do the settings of every room (`AllFit.apply`) and of every room in an answer.
-/

namespace GameLobby.Registry

/-- The settings of every room fit. -/
def AllFit (reg : Registry) : Prop :=
  ∀ o r, reg.roomOf? o = some r → r.settings.Fits

/-- A call brings in only settings that fit. -/
def Call.Fits : Call → Prop
  | .openRoom _ _ settings => settings.Fits
  | .updateRoom _ edit => ∀ r : Room, r.settings.Fits → (edit r).settings.Fits
  | _ => True

theorem allFit_empty : empty.AllFit := nofun

namespace AllFit

variable {reg : Registry} (h : reg.AllFit)

include h

theorem room? {id : RoomId} {r : Room} (hr : reg.room? id = some r) : r.settings.Fits := by
  obtain ⟨o, -, ho⟩ := (room?_eq_some reg).mp hr
  exact h o r ho

theorem mem_values {r : Room} (hr : r ∈ reg.rooms.values) : r.settings.Fits := by
  obtain ⟨o, ho⟩ := (mem_rooms_iff reg).mp hr
  exact h o r ho

theorem modifyRoom (o : ConnectionId) {g : Room → Room}
    (hg : ∀ r : Room, r.settings.Fits → (g r).settings.Fits) : (reg.modifyRoom o g).AllFit := by
  intro c r hr
  rw [roomOf?_modifyRoom] at hr
  obtain ⟨s, hs, rfl⟩ := Option.map_eq_some_iff.mp hr
  split
  · exact hg s (h c s hs)
  · exact h c s hs

theorem modifyRoomAt (id : RoomId) {g : Room → Room}
    (hg : ∀ r : Room, r.settings.Fits → (g r).settings.Fits) : (reg.modifyRoomAt id g).AllFit := by
  unfold Registry.modifyRoomAt
  split
  · exact h
  · exact h.modifyRoom _ hg

theorem closeRoom (conn : ConnectionId) : (reg.closeRoom conn).2.AllFit := by
  intro o r hr
  rw [roomOf?_closeRoom] at hr
  split at hr
  · exact nomatch hr
  · exact h o r hr

theorem vacate (id : RoomId) (conn : ConnectionId) : (reg.vacate id conn).2.AllFit := by
  unfold Registry.vacate
  split
  · exact h
  · exact h.modifyRoomAt _ fun r hr => by rw [Room.toListing_unseat]; exact hr

theorem vacate_answer {id : RoomId} {conn : ConnectionId} {room : Room}
    (hroom : (reg.vacate id conn).1 = some room) : room.settings.Fits := by
  rw [vacate_fst] at hroom
  obtain ⟨r, hr, rfl⟩ := Option.map_eq_some_iff.mp hroom
  rw [Room.toListing_unseat]
  exact h.room? hr

theorem leaveSeat (id : RoomId) (conn : ConnectionId) : (reg.leaveSeat id conn).2.AllFit := by
  unfold Registry.leaveSeat
  split
  · exact h
  split
  · exact h
  split
  · -- the note in the account has nothing to do with rooms
    exact h.modifyRoomAt _ fun r hr => by rw [Room.toListing_unseat]; exact hr
  · exact h

theorem leaveSeat_answer {id : RoomId} {conn : ConnectionId} {room : Room}
    (hroom : (reg.leaveSeat id conn).1 = .ok room) : room.settings.Fits := by
  unfold Registry.leaveSeat at hroom
  split at hroom
  · exact nomatch hroom
  rename_i r hr
  split at hroom
  · exact nomatch hroom
  split at hroom
  · cases hroom
    rw [Room.toListing_unseat]
    exact h.room? hr
  · exact nomatch hroom

theorem modifyRoomAt_seat (id : RoomId) (conn : ConnectionId) :
    (reg.modifyRoomAt id (·.seat conn)).AllFit :=
  h.modifyRoomAt id fun r hr => by rw [Room.toListing_seat]; exact hr

theorem takeSeat (id : RoomId) (conn : ConnectionId) : (reg.takeSeat id conn).2.AllFit := by
  unfold Registry.takeSeat
  split
  · exact h
  split
  · exact h
  have hseat := h.modifyRoomAt_seat id conn
  dsimp only
  split <;> exact hseat

theorem changeSeat (id : RoomId) (conn : ConnectionId) : (reg.changeSeat id conn).2.AllFit := by
  unfold Registry.changeSeat
  split
  · exact h
  split
  · exact h
  have hseat := h.modifyRoomAt_seat id conn
  dsimp only
  split
  · exact hseat
  · exact hseat.vacate _ conn

theorem changeSeat_answer {id : RoomId} {conn : ConnectionId} {change : SeatChange}
    (hchange : (reg.changeSeat id conn).1 = .ok change) :
    change.entered.settings.Fits ∧ ∀ room, change.left = some room → room.settings.Fits := by
  unfold Registry.changeSeat at hchange
  split at hchange
  · exact nomatch hchange
  rename_i r hr
  split at hchange
  · exact nomatch hchange
  have hseat := h.modifyRoomAt_seat id conn
  dsimp only at hchange
  cases hchange
  refine ⟨by rw [Room.toListing_seat]; exact h.room? hr, fun room hleft => ?_⟩
  dsimp only at hleft
  split at hleft
  · exact nomatch hleft
  · exact hseat.vacate_answer hleft

theorem logOut (conn : ConnectionId) : (reg.logOut conn).2.AllFit := by
  unfold Registry.logOut
  split
  · exact h
  have hclosed : ((reg.withoutAccount conn).closeRoom conn).2.AllFit :=
    AllFit.closeRoom (show (reg.withoutAccount conn).AllFit from h) conn
  dsimp only
  split
  · exact hclosed
  · exact hclosed.vacate _ conn

theorem logOut_answer {conn : ConnectionId} {d : Logout} (hd : (reg.logOut conn).1 = some d)
    {room : Room} (hroom : d.leftRoom = some room) : room.settings.Fits := by
  unfold Registry.logOut at hd
  split at hd
  · exact nomatch hd
  have hclosed : ((reg.withoutAccount conn).closeRoom conn).2.AllFit :=
    AllFit.closeRoom (show (reg.withoutAccount conn).AllFit from h) conn
  dsimp only at hd
  cases hd
  dsimp only at hroom
  split at hroom
  · exact nomatch hroom
  · exact hclosed.vacate_answer hroom

theorem openRoom (conn : ConnectionId) (ownerUid : UserId) {settings : RoomSettings}
    (hs : settings.Fits) : (reg.openRoom conn ownerUid settings).2.AllFit := by
  rcases openRoom_cases reg conn ownerUid settings with ⟨e, heq⟩ | ⟨-, heq⟩
  · rw [heq]
    exact h
  rw [heq]
  intro o r hr
  have hrooms : (reg.rooms.insert conn
      (.opened ⟨reg.lastRoomId + 1⟩ conn ownerUid settings)).get? o = some r := hr
  rw [Table.get?_insert] at hrooms
  split at hrooms
  · cases hrooms
    exact hs
  · exact h o r hrooms

theorem updateRoom (conn : ConnectionId) {edit : Room → Room}
    (hedit : ∀ r : Room, r.settings.Fits → (edit r).settings.Fits) :
    (reg.updateRoom conn edit).2.AllFit := by
  unfold Registry.updateRoom
  dsimp only
  split
  · exact h
  · exact h.modifyRoom conn hedit

/-- **Settings.** Calls that bring in only settings that fit keep them all fitting. -/
theorem apply {c : Call} (hc : c.Fits) : (c.apply reg).AllFit := by
  cases c with
  | logIn conn name outbox =>
    show (reg.logIn conn name outbox).2.AllFit
    rcases logIn_cases reg conn name outbox with ⟨e, heq⟩ | ⟨-, heq⟩ <;> rw [heq] <;> exact h
  | logOut conn => exact h.logOut conn
  | setSubscription conn t on =>
    show (reg.setSubscription conn t on).2.AllFit
    unfold Registry.setSubscription
    split <;> exact h
  | openRoom conn ownerUid settings => exact h.openRoom conn ownerUid hc
  | closeRoom conn => exact h.closeRoom conn
  | updateRoom conn edit => exact h.updateRoom conn hc
  | takeSeat id conn => exact h.takeSeat id conn
  | changeSeat id conn => exact h.changeSeat id conn
  | leaveSeat id conn => exact h.leaveSeat id conn

end AllFit

end GameLobby.Registry
