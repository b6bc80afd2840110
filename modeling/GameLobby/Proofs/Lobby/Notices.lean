import GameLobby.Proofs.Lobby.Board
import GameLobby.Proofs.Registry.Answers

/-!
# Notices of rooms

Whatever touches rooms is followed by notices of those rooms, each as it is by then, and nothing is
said of a room that is not so. So a turn leaves an observer wrong about no room (`Event.informs`),
and a client that starts to watch is told of every room there is (`watchRooms_informs`).
-/

namespace GameLobby

open Registry

/-- A request for no more news of rooms. -/
def Request.unwatchesRooms : Request → Bool
  | .unwatchRooms _ => true
  | _ => false

/-- A client wants no more news of rooms, or its session ended. -/
def Event.Unwatches (c : ConnectionId) : Event → Prop
  | .frame v f => v.conn = c ∧ (Session.request? f).any (·.unwatchesRooms)
  | .departure conn => conn = c

instance (c : ConnectionId) (e : Event) : Decidable (e.Unwatches c) :=
  match e with
  | .frame .. => inferInstanceAs (Decidable (_ ∧ _))
  | .departure conn => inferInstanceAs (Decidable (conn = c))

@[simp] theorem Message.about?_snapshot (room : Room) (ticketId : UInt32) :
    (Message.gameServerData (room.snapshot ticketId)).about? = some room.id := rfl

namespace Deed

variable {c : ConnectionId} {reg : Registry} {rooms : List RoomId}

@[simp] theorem honest_ok (v : Visitor) (ticketId : UInt32) : (Deed.ok v ticketId).Honest c reg :=
  trivial

@[simp] theorem stale_ok (v : Visitor) (ticketId : UInt32) :
    (Deed.ok v ticketId).stale c reg rooms = rooms := by
  simp [Deed.ok, stale, Message.about?]

theorem honest_tellRoom {room : Room} (h : reg.room? room.id = some room) (ticketId : UInt32) :
    (tellRoom ticketId room).Honest c reg :=
  ⟨room, ticketId, h, rfl⟩

@[simp] theorem stale_tellRoom (room : Room) (ticketId : UInt32) :
    (tellRoom ticketId room).stale c reg rooms = rooms.filter (room.id ≠ ·) := by
  simp [tellRoom, stale, News.message]

@[simp] theorem stale_tellRemoved (notice : RemoveServer) :
    (tell (.roomRemoved notice)).stale c reg rooms = rooms.filter (⟨notice.serverId⟩ ≠ ·) := by
  simp [stale, News.message, Message.about?]

@[simp] theorem stale_tellLoggedOut (uid : UserId) (name : RawText) :
    (tell (.loggedOut uid name)).stale c reg rooms = rooms := by
  simp [stale, News.message, Message.about?]

/-- What is honest and touches no room leaves an observer informed. -/
theorem informs_of_offers {ds : List Deed} (hcall : ∀ d ∈ ds, ∀ k, d ≠ .call k)
    (h : ∀ d ∈ ds, d.Honest c reg) : Informs c reg [] ds := by
  induction ds with
  | nil => rfl
  | cons d ds ih =>
    obtain ⟨hd, hds⟩ := List.forall_mem_cons.mp hcall
    obtain ⟨ht, hts⟩ := List.forall_mem_cons.mp h
    have hrest := ih hds hts
    cases d with
    | call k => exact absurd rfl (hd k)
    | send conn m =>
      refine ⟨ht, ?_⟩
      rw [show (send conn m).stale c reg [] = [] from ite_self []]
      exact hrest
    | tell | exhibit => exact ⟨ht, hrest⟩

/-- Rooms shown to an observer one after the other, and no others left. -/
theorem informs_shown {shown : List Room} (h : ∀ r ∈ shown, reg.room? r.id = some r)
    (hall : ∀ id ∈ rooms, ∃ r ∈ shown, r.id = id) (ticketId : UInt32) :
    Informs c reg rooms
      (shown.map fun r => .send c (.gameServerData (r.snapshot ticketId))) := by
  induction shown generalizing rooms with
  | nil =>
    refine List.eq_nil_iff_forall_not_mem.mpr fun id hid => ?_
    obtain ⟨r, hr, -⟩ := hall id hid
    exact nomatch hr
  | cons r shown ih =>
    obtain ⟨hr, hshown⟩ := List.forall_mem_cons.mp h
    refine ⟨⟨r, ticketId, hr, rfl⟩, ih hshown fun id hid => ?_⟩
    have hleft : id ∈ rooms ∧ r.id ≠ id := by
      simpa [stale] using hid
    obtain ⟨s, hs, hsid⟩ := hall id hleft.1
    rcases List.mem_cons.mp hs with rfl | hs
    · exact absurd hsid hleft.2
    · exact ⟨s, hs, hsid⟩

end Deed

namespace Session

open Deed

variable {rules : Rules} {v : Visitor} {reg : Registry} {ds : List Deed} {c : ConnectionId}

/-! ## Requests -/

theorem subscribePlan_informs {topic : Topic} {on : Bool} {rest : Registry → List Deed}
    (h : subscribePlan v reg topic on rest = .ok ds)
    (hstays : ¬ (Call.setSubscription v.conn topic on).Unwatches c)
    (hcall : ∀ reg, ∀ d ∈ rest reg, ∀ k, d ≠ .call k)
    (hhonest : ∀ d ∈ rest (reg.setSubscription v.conn topic on).2,
      d.Honest c (reg.setSubscription v.conn topic on).2) : Informs c reg [] ds := by
  obtain ⟨a, -, rfl⟩ := subscribePlan_ok h
  exact ⟨hstays, informs_of_offers (hcall _) hhonest⟩

section WellFormed

variable (h : reg.WellFormed)

include h

theorem roomClosed_informs {notice : Room → RemoveServer}
    (hnotice : ∀ room, (notice room).serverId = room.id.number) :
    Informs c reg [] (roomClosed v reg notice) := by
  refine ⟨id, ?_⟩
  have hclosed := room?_closeRoom h.toFiled v.conn
  cases hroom : reg.roomOf? v.conn with
  | none =>
    show (Deed.call (.closeRoom v.conn)).stale c reg [] = []
    simp [stale, Call.touched, hroom]
  | some room =>
    have hid : (⟨(notice room).serverId⟩ : RoomId) = room.id := by rw [hnotice]
    refine ⟨?_, ?_⟩
    · show (reg.closeRoom v.conn).2.room? ⟨(notice room).serverId⟩ = none
      rw [hclosed, hroom, hid]
      exact if_pos rfl
    · show (Deed.tell (.roomRemoved (notice room))).stale c _ _ = []
      rw [stale_tellRemoved, hid]
      simp [stale, Call.touched, hroom]

theorem seatGivenUp_informs (ticketId : UInt32) :
    Informs c reg [] (seatGivenUp v reg ticketId) := by
  unfold seatGivenUp
  split
  · rfl
  · rename_i id hj
    obtain ⟨room, hleft⟩ := h.leaveSeat_joined hj
    obtain ⟨hid, hroom⟩ := h.toFiled.room?_leaveSeat hleft
    rw [hleft]
    subst hid
    refine ⟨not_false, honest_tellRoom hroom ticketId, ?_⟩
    show (tellRoom ticketId room).stale c _ _ = []
    rw [stale_tellRoom]
    simp [stale, Call.touched]

theorem roomOffered_informs (uid : UserId) (settings : RoomSettings) (ticketId : UInt32)
    (hnone : reg.roomOf? v.conn = none) :
    Informs c reg []
      (roomOffered v (.opened ⟨reg.lastRoomId + 1⟩ v.conn uid settings) ticketId) := by
  have hopened := h.room?_openRoom v.conn uid settings hnone ⟨reg.lastRoomId + 1⟩
  rw [if_pos rfl] at hopened
  refine ⟨not_false, trivial, honest_tellRoom hopened ticketId, ?_⟩
  show (tellRoom ticketId _).stale c _ _ = []
  rw [stale_tellRoom]
  simp [stale, Call.touched, Message.about?, Room.opened]

theorem openRoomPlan_informs {r : AddGameServer} (hplan : openRoomPlan rules v reg r = .ok ds) :
    Informs c reg [] ds := by
  obtain ⟨a, -, -, rfl⟩ := openRoomPlan_ok hplan
  have hclosed := h.closeRoom v.conn
  have hleft : (afterAll (reg.closeRoom v.conn).2
      (seatGivenUp v (reg.closeRoom v.conn).2 r.ticketId)).WellFormed :=
    seatGivenUp_preserves r.ticketId hclosed fun id => hclosed.leaveSeat id v.conn
  have hnone : (reg.closeRoom v.conn).2.roomOf? v.conn = none := by
    rw [roomOf?_closeRoom, if_pos rfl]
  have hlast := (lastRoomId_seatGivenUp (v := v) r.ticketId).trans
    (@lastRoomId_closeRoom reg v.conn)
  refine ((roomClosed_informs h fun room => rfl).append ?_).append ?_
  · rw [afterAll_roomClosed]
    exact seatGivenUp_informs hclosed r.ticketId
  · rw [afterAll_append, afterAll_roomClosed]
    have hoffered := roomOffered_informs (v := v) (c := c) hleft a.uid (offeredSettings rules v r)
      r.ticketId (roomOf?_seatGivenUp r.ticketId hnone)
    rw [hlast] at hoffered
    exact hoffered

/-- A room taken away, if an observer was wrong at most about this room. -/
theorem roomGone_informs {room : Room} (hroom : reg.roomOf? v.conn = some room) {r : RemoveServer}
    (hid : room.id = ⟨r.serverId⟩) {rooms : List RoomId} (hrooms : ∀ id ∈ rooms, id = room.id) :
    Informs c reg rooms
      [.call (.closeRoom v.conn), .tell (.roomRemoved r), .ok v r.ticketId] := by
  refine ⟨not_false, ?_, trivial, ?_⟩
  · show (reg.closeRoom v.conn).2.room? ⟨r.serverId⟩ = none
    rw [room?_closeRoom h.toFiled, hroom, ← hid]
    exact if_pos rfl
  · show (Deed.ok v r.ticketId).stale c _ _ = []
    rw [stale_ok, stale_tellRemoved, ← hid]
    simp only [stale, Call.touched, hroom, Option.map_some, Option.toList_some, List.cons_append,
      List.nil_append, List.filter_eq_nil_iff, List.forall_mem_cons]
    exact ⟨by simp, fun id hmem => by simp [hrooms id hmem]⟩

theorem closeRoomPlan_informs {r : RemoveServer} (hplan : closeRoomPlan v reg r = .ok ds) :
    Informs c reg [] ds := by
  obtain ⟨room, hroom, hid, rfl⟩ := closeRoomPlan_ok hplan
  split
  · -- a game that starts changes the room before it goes
    let start (l : Listing) : Listing := { l with running := true }
    have hstarted : (reg.editRoom v.conn start).2.roomOf? v.conn = some (room.relist start) :=
      roomOf?_editRoom_of_room hroom
    have hshown := h.toFiled.room?_editRoom hroom start
    refine ⟨not_false, ⟨_, r.ticketId, hshown, rfl⟩, ?_⟩
    refine roomGone_informs (h.editRoom v.conn start) hstarted hid ?_
    simp [stale, hroom, Room.relist]
  · exact roomGone_informs h hroom hid fun _ hmem => absurd hmem List.not_mem_nil

theorem changeRoomPlan_informs {r : ChangeGameServer} (hplan : changeRoomPlan v reg r = .ok ds) :
    Informs c reg [] ds := by
  obtain ⟨room, hroom, -, -, rfl⟩ := changeRoomPlan_ok hplan
  have hchanged := h.toFiled.room?_editRoom hroom fun _ =>
    ⟨changedSettings room.settings r, r.running, r.propertyMask⟩
  refine ⟨not_false, honest_tellRoom hchanged r.ticketId, trivial, ?_⟩
  show (Deed.ok v r.ticketId).stale c _ _ = []
  rw [stale_ok, stale_tellRoom]
  simp [stale, hroom]

theorem joinRoomPlan_informs {r : JoinServer} (hplan : joinRoomPlan v reg r = .ok ds) :
    Informs c reg [] ds := by
  obtain ⟨a, change, -, hchange, rfl⟩ := joinRoomPlan_ok hplan
  obtain ⟨⟨hid, hfound⟩, hleft⟩ := h.room?_changeSeat hchange
  have hentered : (reg.changeSeat ⟨r.serverId⟩ v.conn).2.room? change.entered.id =
      some change.entered := by
    rw [hid]
    exact hfound
  refine ⟨not_false, ?_⟩
  cases hother : change.left with
  | none =>
    rw [hother] at hleft
    refine ⟨trivial, honest_tellRoom hentered r.ticketId, ?_⟩
    show (tellRoom r.ticketId change.entered).stale c _ _ = []
    rw [stale_tellRoom, stale_ok, hid]
    rcases hleft with hj | hj
    · simp [stale, Call.touched, hj]
    · simp [stale, Call.touched, hj]
  | some room =>
    rw [hother] at hleft
    obtain ⟨hne, hj, hroom⟩ := hleft
    refine ⟨honest_tellRoom hroom r.ticketId, trivial, honest_tellRoom hentered r.ticketId, ?_⟩
    show (tellRoom r.ticketId change.entered).stale c _ _ = []
    rw [stale_tellRoom, stale_ok, stale_tellRoom, hid]
    simp [stale, Call.touched, hj, hne]

theorem leaveRoomPlan_informs {r : LeaveServer} (hplan : leaveRoomPlan v reg r = .ok ds) :
    Informs c reg [] ds := by
  obtain ⟨id, room, hleft, rfl⟩ := leaveRoomPlan_ok hplan
  obtain ⟨hid, hroom⟩ := h.toFiled.room?_leaveSeat hleft
  subst hid
  refine ⟨not_false, trivial, honest_tellRoom hroom r.ticketId, ?_⟩
  show (tellRoom r.ticketId room).stale c _ _ = []
  rw [stale_tellRoom, stale_ok]
  simp [stale, Call.touched]

/-- The end of somebody else's session leaves an observer informed. -/
theorem departure_informs {conn : ConnectionId} (hne : conn ≠ c) :
    Informs c reg [] (departureDeeds reg conn) := by
  unfold departureDeeds
  split
  · rfl
  rename_i d hd
  obtain ⟨howned, hgone, hjoined, hleft⟩ := h.room?_logOut hd
  refine ⟨hne, ?_⟩
  have hstale : (Deed.call (.logOut conn)).stale c reg [] =
      (d.ownedRoom.map (·.id)).toList ++ (d.leftRoom.map (·.id)).toList := by
    rw [hjoined, howned]
    exact List.append_nil _
  rw [hstale]
  unfold farewell
  cases ho : d.ownedRoom with
  | none =>
    cases hl : d.leftRoom with
    | none => exact ⟨trivial, rfl⟩
    | some room =>
      refine ⟨honest_tellRoom (hleft room hl) 0, trivial, ?_⟩
      show (tell (.loggedOut _ _)).stale c _ ((tellRoom 0 room).stale c _ [room.id]) = []
      rw [stale_tellLoggedOut, stale_tellRoom]
      simp
  | some owned =>
    cases hl : d.leftRoom with
    | none =>
      refine ⟨hgone owned ho, trivial, ?_⟩
      show (tell (.loggedOut _ _)).stale c _
        ((tell (.roomRemoved ⟨owned.id.number, owned.running, 0⟩)).stale c _ [owned.id]) = []
      rw [stale_tellLoggedOut, stale_tellRemoved]
      simp
    | some room =>
      refine ⟨hgone owned ho, honest_tellRoom (hleft room hl) 0, trivial, ?_⟩
      show (tell (.loggedOut _ _)).stale c _ ((tellRoom 0 room).stale c _
        ((tell (.roomRemoved ⟨owned.id.number, owned.running, 0⟩)).stale c _
          [owned.id, room.id])) = []
      rw [stale_tellLoggedOut, stale_tellRoom, stale_tellRemoved]
      simp

end WellFormed

/-- A request leaves an observer informed, unless it is the observer's own and ends its news. -/
theorem plan_informs (h : reg.WellFormed) {r : Request} (hplan : plan rules v reg r = .ok ds)
    (hstays : v.conn = c → ¬ r.unwatchesRooms) : Informs c reg [] ds := by
  have henter : ∀ {entry credentials patchlevel ticketId},
      enterPlan rules v reg entry credentials patchlevel ticketId = .ok ds →
      Informs c reg [] ds := by
    intro entry credentials patchlevel ticketId hplan
    rcases enterPlan_ok hplan with rfl | ⟨-, rfl⟩
    · exact informs_of_offers (by simp [Deed.ok]) (by simp)
    · exact ⟨not_false, informs_of_offers (by simp [Deed.ok])
        (by simp [Deed.ok, Honest, News.message, Message.TrueOf])⟩
  have hsubscribe : ∀ {topic on ticketId},
      subscribePlan v reg topic on (fun _ => [.ok v ticketId]) = .ok ds →
      ¬ (Call.setSubscription v.conn topic on).Unwatches c → Informs c reg [] ds :=
    fun hplan hcall => subscribePlan_informs hplan hcall (by simp [Deed.ok]) (by simp)
  cases r with simp only [plan] at hplan
  | chat r =>
    split at hplan
    · cases hplan
    · cases hplan
      exact informs_of_offers (by simp) (by simp [Honest, News.message, Message.TrueOf])
  | motd r =>
    split at hplan
    · cases hplan
    · cases hplan
      exact informs_of_offers (by simp) (by simp [Honest, Message.TrueOf])
  | login r => exact henter hplan
  | newAccount r => exact henter hplan
  | watchChat r => exact hsubscribe hplan not_false
  | unwatchChat r => exact hsubscribe hplan not_false
  | unwatchLogins r => exact hsubscribe hplan not_false
  | unwatchRooms r => exact hsubscribe hplan fun hc => hstays hc rfl
  | watchLogins r =>
    exact subscribePlan_informs hplan not_false (by simp [Deed.ok])
      (by simp [Deed.ok, Honest, Message.TrueOf])
  | watchRooms r =>
    refine subscribePlan_informs hplan not_false (by simp [Deed.ok, or_imp, forall_and]) ?_
    intro d hd
    rcases List.mem_append.mp hd with hd | hd
    · obtain ⟨room, hroom, rfl⟩ := List.mem_map.mp hd
      exact ⟨room, r.ticketId, (h.setSubscription ..).room?_of_mem (mem_ascending.mp hroom), rfl⟩
    · rw [List.mem_singleton.mp hd]
      trivial
  | openRoom r => exact openRoomPlan_informs h hplan
  | closeRoom r => exact closeRoomPlan_informs h hplan
  | changeRoom r => exact changeRoomPlan_informs h hplan
  | joinRoom r => exact joinRoomPlan_informs h hplan
  | leaveRoom r => exact leaveRoomPlan_informs h hplan

/-- A client that starts to watch rooms is told of every room. -/
theorem watchRooms_informs (h : reg.WellFormed) (ticketId : UInt32) :
    Informs v.conn reg (reg.rooms.values.map (·.id))
      ((reg.roomsInOrder.map fun room =>
        .send v.conn (.gameServerData (room.snapshot ticketId))) ++ [.ok v ticketId]) := by
  refine (informs_shown (fun r hr => h.room?_of_mem (mem_ascending.mp hr)) ?_ ticketId).append ?_
  · intro id hid
    obtain ⟨r, hr, hrid⟩ := List.mem_map.mp hid
    exact ⟨r, mem_ascending.mpr hr, hrid⟩
  · exact ⟨trivial, stale_ok v ticketId⟩

end Session

/-- **Notices.** A turn leaves an observer wrong about no room, unless it ends the observer's
news. -/
theorem Event.informs (rules : Rules) (e : Event) {reg : Registry} (h : reg.WellFormed)
    {c : ConnectionId} (hstays : ¬ e.Unwatches c) : Deed.Informs c reg [] (e.deeds rules reg) := by
  cases e with
  | frame v f =>
    show Deed.Informs c reg [] (Session.frameDeeds rules v reg f)
    rcases Session.frameDeeds_cases rules v reg f with heq | ⟨r, ds, hr, hplan, heq⟩ | ⟨answer, heq⟩
    · rw [heq]
      rfl
    · rw [heq]
      refine Session.plan_informs h hplan fun hc hends => hstays ⟨hc, ?_⟩
      rw [hr]
      exact hends
    · rw [heq]
      exact Deed.informs_of_offers (by simp) (by simp [Deed.Honest, Message.TrueOf])
  | departure conn => exact Session.departure_informs h hstays

end GameLobby
