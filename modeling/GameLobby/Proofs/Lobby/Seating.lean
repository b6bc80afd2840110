import GameLobby.Proofs.Lobby.Departures
import GameLobby.Proofs.Lobby.Moves
import GameLobby.Proofs.Lobby.RoomNews
import GameLobby.Proofs.Registry.Visits
import GameLobby.Proofs.Session.Outcome

/-!
# Requests for seats

A request to join a room is looked at twice, by the session and then by the registry, and a request
to leave one is looked at by the registry alone, which knows more reasons to refuse than there are
left by then. In a coherent registry the outcome can be read off the rooms and accounts
(`joinRoom_outcome`, `leaveRoom_outcome`). Main statement: `seats_as_registry_decides`.
-/

namespace GameLobby

open Registry

namespace Session

open Deed Handler

variable {rules : Rules} {v : Visitor} {reg : Registry} {room : Room}

/-! ## Joining -/

/-- What is done when a seat is taken. -/
def joinDeeds (v : Visitor) (reg : Registry) (room : Room) (ticketId : UInt32) : List Deed :=
  .call (.changeSeat room.id v.conn) ::
    (reg.left? room.id v.conn).toList.map (.tellRoom ticketId) ++
    [.ok v ticketId, .tellRoom ticketId (room.seat v.conn)]

/-- Somebody who is logged in and whom the room admits gets a seat in it. -/
theorem joinRoomPlan_of_admits (hco : reg.Coherent) {r : JoinServer}
    (hroom : reg.room? ⟨r.serverId⟩ = some room) (hadmits : Admits room v.conn) {a : Account}
    (ha : reg.account? v.conn = some a) :
    joinRoomPlan v reg r = .ok (joinDeeds v reg room r.ticketId) := by
  have hid : room.id = ⟨r.serverId⟩ := hco.id_of_room? hroom
  unfold joinRoomPlan joinDeeds
  rw [hroom, hid]
  dsimp only
  rw [admits_iff.mp hadmits, ha, (hco.changeSeat_visited hroom hadmits).1]
  rfl

/-- Whether all places of a room are gone for somebody who has no seat in it. -/
def Shut (room : Room) (conn : ConnectionId) : Prop :=
  conn ∉ room.players ∧
    room.settings.maxPlayers.toNat ≤ room.players.length + room.settings.aiPlayers.toNat

instance (room : Room) (conn : ConnectionId) : Decidable (Shut room conn) :=
  inferInstanceAs (Decidable (_ ∧ _))

theorem shut_iff {conn : ConnectionId} :
    Shut room conn ↔ (!room.hasSeat conn && room.isFull) = true := by
  unfold Shut Room.hasSeat Room.isFull
  simp

/-- How a request to join ends: whether there is the room is asked first, then whether it has a
place, and only then who asks. -/
theorem joinRoom_outcome (hreg : reg.Filed) (r : JoinServer) :
    (run (carryOut rules v (.joinRoom r)) ⟨reg, []⟩).1 =
      if ∀ room ∈ reg.rooms.values, room.id ≠ ⟨r.serverId⟩ then .error (.roomNotFound ⟨r.serverId⟩)
      else if ∃ room ∈ reg.rooms.values, room.id = ⟨r.serverId⟩ ∧ Shut room v.conn then
        .error (.roomFull ⟨r.serverId⟩)
      else if reg.account? v.conn = none then .error .notLoggedIn
      else .ok () := by
  rw [outcome_eq]
  show (joinRoomPlan v reg r).map _ = _
  unfold joinRoomPlan
  cases hroom : reg.room? ⟨r.serverId⟩ with
  | none =>
    rw [if_pos (hreg.forall_id_ne_iff.mpr hroom)]
    rfl
  | some room =>
    have hfound : ¬ ∀ room ∈ reg.rooms.values, room.id ≠ ⟨r.serverId⟩ := fun hne =>
      nomatch (hreg.forall_id_ne_iff.mp hne).symm.trans hroom
    rw [if_neg hfound]
    simp only [hreg.exists_id_eq_iff hroom, shut_iff]
    cases hfull : !room.hasSeat v.conn && room.isFull with
    | true => rfl
    | false =>
      obtain ⟨left, hanswer⟩ := changeSeat_of_admits hroom (admits_iff.mpr hfull)
      cases ha : reg.account? v.conn with
      | none => rfl
      | some a =>
        rw [hanswer]
        rfl

/-- The session lets a request to join through exactly if the registry does, and asks then who it
is from. -/
theorem joinRoom_outcome_eq_changeSeat (r : JoinServer) :
    (run (carryOut rules v (.joinRoom r)) ⟨reg, []⟩).1 =
      match (reg.changeSeat ⟨r.serverId⟩ v.conn).1 with
      | .error e => .error (.ofRegistry e)
      | .ok _ => if reg.account? v.conn = none then .error .notLoggedIn else .ok () := by
  rw [outcome_eq]
  show (joinRoomPlan v reg r).map _ = _
  unfold joinRoomPlan changeSeat
  cases reg.room? ⟨r.serverId⟩ with
  | none => rfl
  | some room =>
    dsimp only
    cases !room.hasSeat v.conn && room.isFull with
    | true => rfl
    | false => cases reg.account? v.conn <;> rfl

/-- What is done when a seat is taken comes to a move. -/
theorem moved_joinDeeds (hco : reg.Coherent) (hroom : reg.room? room.id = some room)
    (hadmits : Admits room v.conn) (ticketId : UInt32) :
    Moved v.conn room reg (afterAll reg (joinDeeds v reg room ticketId)) := by
  have hafter : afterAll reg (joinDeeds v reg room ticketId) =
      (reg.changeSeat room.id v.conn).2 := by
    unfold joinDeeds
    cases reg.left? room.id v.conn <;> rfl
  rw [hafter]
  exact (hco.changeSeat_visited hroom hadmits).2

theorem aboutRooms_joinDeeds (hfit : reg.AllFit) (hco : reg.Coherent)
    (hroom : reg.room? room.id = some room) (hadmits : Admits room v.conn) (ticketId : UInt32) :
    ∀ d ∈ joinDeeds v reg room ticketId, d.AboutRooms := by
  obtain ⟨hentered, hleft⟩ :=
    hfit.changeSeat_answer (hco.changeSeat_visited hroom hadmits).1
  refine List.forall_mem_cons.mpr ⟨trivial, List.forall_mem_append.mpr ⟨?_,
    List.forall_mem_cons.mpr ⟨aboutRooms_ok v ticketId,
      List.forall_mem_singleton.mpr (aboutRooms_tellRoom hentered ticketId)⟩⟩⟩
  intro d hd
  obtain ⟨left, hmem, rfl⟩ := List.mem_map.mp hd
  exact aboutRooms_tellRoom (hleft left (Option.mem_toList.mp hmem)) ticketId

/-- What a connection hears when a seat is taken. -/
theorem messagesFor_joinDeeds (hho : reg.Housed) (hfit : reg.AllFit) (hco : reg.Coherent)
    (hroom : reg.room? room.id = some room) (hadmits : Admits room v.conn) (ticketId : UInt32)
    (c : ConnectionId) :
    Offer.messagesFor c (offersAll rules reg (joinDeeds v reg room ticketId)) =
      (if reg.subscribes .rooms c then
        (reg.left? room.id v.conn).toList.map fun left => .gameServerData (left.snapshot ticketId)
      else []) ++
      (if v.conn = c then [.resultMessage (.ok ticketId)] else []) ++
      if reg.subscribes .rooms c then
        [.gameServerData ((room.seat v.conn).snapshot ticketId)]
      else [] := by
  rw [messagesFor_offersAll rules (aboutRooms_joinDeeds hfit hco hroom hadmits ticketId) hho]
  unfold joinDeeds
  cases reg.subscribes .rooms c <;> cases reg.left? room.id v.conn <;>
    simp [heard, Deed.ok, tellRoom, News.message]

/-! ## Leaving -/

/-- What is done when a seat is left. -/
def leaveDeeds (v : Visitor) (room : Room) (ticketId : UInt32) : List Deed :=
  [.call (.leaveSeat room.id v.conn), .ok v ticketId, .tellRoom ticketId (room.without v.conn)]

/-- A visitor can leave the room that it visits. -/
theorem leaveRoomPlan_of_visited (hco : reg.Coherent) (hv : reg.visited? v.conn = some room)
    (r : LeaveServer) : leaveRoomPlan v reg r = .ok (leaveDeeds v room r.ticketId) := by
  obtain ⟨hj, -⟩ := hco.joined?_of_visited? hv
  obtain ⟨a, ha, hnote⟩ := Option.bind_eq_some_iff.mp hj
  unfold leaveRoomPlan
  rw [ha]
  dsimp only
  rw [hnote]
  dsimp only
  rw [(hco.leaveSeat_visited hv).1]
  rfl

/-- Whoever visits no room has none to leave. -/
theorem leaveRoomPlan_of_not_visited (hco : reg.Coherent) (hv : reg.visited? v.conn = none)
    (r : LeaveServer) :
    leaveRoomPlan v reg r =
      if reg.account? v.conn = none then .error .notLoggedIn else .error .notJoined := by
  have hj := hco.joined?_of_visited?_none hv
  unfold leaveRoomPlan
  cases ha : reg.account? v.conn with
  | none => rfl
  | some a =>
    rw [joined?_eq ha] at hj
    dsimp only
    rw [hj]
    rfl

/-- How a request to leave ends. -/
theorem leaveRoom_outcome (hco : reg.Coherent) (r : LeaveServer) :
    (run (carryOut rules v (.leaveRoom r)) ⟨reg, []⟩).1 =
      if reg.account? v.conn = none then .error .notLoggedIn
      else if ∃ room ∈ reg.rooms.values, room.owner ≠ v.conn ∧ v.conn ∈ room.players then .ok ()
      else .error .notJoined := by
  rw [outcome_eq]
  show (leaveRoomPlan v reg r).map _ = _
  cases hv : reg.visited? v.conn with
  | none =>
    have hnowhere : ¬ ∃ room ∈ reg.rooms.values, room.owner ≠ v.conn ∧ v.conn ∈ room.players := by
      rw [hco.exists_seat_iff, hv]
      rintro ⟨_, hr⟩
      exact nomatch hr
    rw [leaveRoomPlan_of_not_visited hco hv, if_neg hnowhere]
    split <;> rfl
  | some room =>
    obtain ⟨hj, -⟩ := hco.joined?_of_visited? hv
    obtain ⟨a, ha, -⟩ := Option.bind_eq_some_iff.mp hj
    rw [leaveRoomPlan_of_visited hco hv, if_neg (by rw [ha]; exact nofun),
      if_pos ((hco.exists_seat_iff v.conn).mpr ⟨room, hv⟩)]
    rfl

theorem aboutRooms_leaveDeeds (hfit : reg.AllFit) (hco : reg.Coherent)
    (hv : reg.visited? v.conn = some room) (ticketId : UInt32) :
    ∀ d ∈ leaveDeeds v room ticketId, d.AboutRooms :=
  List.forall_mem_cons.mpr ⟨trivial, List.forall_mem_cons.mpr ⟨aboutRooms_ok v ticketId,
    List.forall_mem_singleton.mpr (aboutRooms_tellRoom
      (hfit.leaveSeat_answer (hco.leaveSeat_visited hv).1) ticketId)⟩⟩

/-- What a connection hears when a seat is left. -/
theorem messagesFor_leaveDeeds (hho : reg.Housed) (hfit : reg.AllFit) (hco : reg.Coherent)
    (hv : reg.visited? v.conn = some room) (ticketId : UInt32) (c : ConnectionId) :
    Offer.messagesFor c (offersAll rules reg (leaveDeeds v room ticketId)) =
      (if v.conn = c then [.resultMessage (.ok ticketId)] else []) ++
      if reg.subscribes .rooms c then
        [.gameServerData ((room.without v.conn).snapshot ticketId)]
      else [] := by
  rw [messagesFor_offersAll rules (aboutRooms_leaveDeeds hfit hco hv ticketId) hho]
  unfold leaveDeeds
  simp [heard, Deed.ok, tellRoom, News.message]

/-! ## What comes of it -/

/-- In turn `t` client `v` gets a seat in `room`. -/
structure Joins (v : Visitor) (room : Room) (ticketId : UInt32) (reg : Registry) (t : Turn) :
    Prop where
  moved : Moved v.conn room reg t.registry
  found : t.registry.room? room.id = some (room.seat v.conn)
  seated : v.conn ∈ (room.seat v.conn).players
  /-- It has no seat elsewhere, unless in the room that it owns. -/
  nowhere_else : ∀ o s, t.registry.roomOf? o = some s → v.conn ∈ s.players →
    o = v.conn ∨ s.id = room.id
  /-- The news of the room left, if there is one, is before that of the room joined. -/
  told : ∀ c, Offer.messagesFor c t.offers =
    (if reg.subscribes .rooms c then
      (reg.left? room.id v.conn).toList.map fun left => .gameServerData (left.snapshot ticketId)
    else []) ++
    (if v.conn = c then [.resultMessage (.ok ticketId)] else []) ++
    if reg.subscribes .rooms c then
      [.gameServerData ((room.seat v.conn).snapshot ticketId)]
    else []

/-- In turn `t` client `v` gives up its seat in `room`. -/
structure Leaves (v : Visitor) (room : Room) (ticketId : UInt32) (reg : Registry) (t : Turn) :
    Prop where
  unseated : Unseated v.conn reg t.registry
  found : t.registry.room? room.id = some (room.without v.conn)
  unlisted : v.conn ∉ (room.without v.conn).players
  told : ∀ c, Offer.messagesFor c t.offers =
    (if v.conn = c then [.resultMessage (.ok ticketId)] else []) ++
    if reg.subscribes .rooms c then
      [.gameServerData ((room.without v.conn).snapshot ticketId)]
    else []

variable {f : Frame}

theorem joins_of_served (hco : reg.Coherent) (hho : reg.Housed) (hfit : reg.AllFit)
    {r : JoinServer} (hrequest : request? f = some (.joinRoom r))
    (hok : (run (carryOut rules v (.joinRoom r)) ⟨reg, []⟩).1 = .ok ()) :
    ∃ room ∈ reg.rooms.values, room.id = ⟨r.serverId⟩ ∧
      Joins v room r.ticketId reg (handle rules v f ⟨reg, []⟩) := by
  obtain ⟨a, change, ha, hchange, -⟩ := joinRoomPlan_ok (plan_of_served hok)
  obtain ⟨room, hroom, hadmits⟩ : ∃ room, reg.room? ⟨r.serverId⟩ = some room ∧
      Admits room v.conn := by
    rcases hco.changeSeat_cases ⟨r.serverId⟩ v.conn with ⟨e, heq⟩ | ⟨room, hroom, hadmits, -⟩
    · rw [heq] at hchange
      exact nomatch hchange
    · exact ⟨room, hroom, hadmits⟩
  have hid : room.id = ⟨r.serverId⟩ := hco.id_of_room? hroom
  have hfound : reg.room? room.id = some room := hid ▸ hroom
  have hmoved := moved_joinDeeds hco hfound hadmits r.ticketId
  rw [handle_of_plan hrequest (joinRoomPlan_of_admits hco hroom hadmits ha)]
  exact ⟨room, hco.mem_of_room? hroom, hid, hmoved, hmoved.room?_eq hfound,
    Room.mem_players_seat.mpr (.inr rfl), fun o s hs => hmoved.seat_own hco.toFiled hs,
    messagesFor_joinDeeds hho hfit hco hfound hadmits r.ticketId⟩

theorem leaves_of_served (hco : reg.Coherent) (hho : reg.Housed) (hfit : reg.AllFit)
    {r : LeaveServer} (hrequest : request? f = some (.leaveRoom r))
    (hok : (run (carryOut rules v (.leaveRoom r)) ⟨reg, []⟩).1 = .ok ()) :
    ∃ room, reg.visited? v.conn = some room ∧
      Leaves v room r.ticketId reg (handle rules v f ⟨reg, []⟩) := by
  cases hv : reg.visited? v.conn with
  | none =>
    have hnone := (leaveRoomPlan_of_not_visited hco hv r).symm.trans (plan_of_served hok)
    split at hnone <;> exact nomatch hnone
  | some room =>
    obtain ⟨-, hfound⟩ := hco.joined?_of_visited? hv
    obtain ⟨o, ho, hroom, -⟩ := (hco.visited?_eq_some_iff v.conn).mp hv
    have howner : room.owner ≠ v.conn := hco.owner_eq hroom ▸ ho
    have hleft : Unseated v.conn reg (afterAll reg (leaveDeeds v room r.ticketId)) :=
      (hco.leaveSeat_visited hv).2
    rw [handle_of_plan hrequest (leaveRoomPlan_of_visited hco hv r)]
    refine ⟨room, rfl, hleft, ?_, by simp [Room.without],
      messagesFor_leaveDeeds hho hfit hco hv r.ticketId⟩
    show Registry.room? (afterAll reg (leaveDeeds v room r.ticketId)) room.id = _
    rw [Edited.room?_eq hleft, hfound, Option.map_some, if_neg howner]

end Session

namespace Lobby

/-- **Seats.** In whatever state a lobby is, a request to join is refused if there is no such room,
then if all places are gone and the client has none of them, then if the client is not logged in,
and goes through otherwise; that is what the registry says, too. The client then has a seat there
and in no other room but its own, and those who watch rooms are shown the room left, if there is
one, and then the room joined. A request to leave goes through exactly if the client has a seat in
the room of somebody else, which does not list it any more. A user without such a seat is told that
it has not joined, and nothing else. A request that is refused changes nothing. -/
theorem seats_as_registry_decides {rules : Rules} {l : Lobby} {ms : List Moment}
    (h : Passes rules opened ms l) (hn : ∀ m ∈ ms, m.registry.NumbersLeft) (v : Visitor)
    (f : Frame) :
    let reg := l.registry
    let l' := l.takeTurn (Session.handle rules v f)
    let turn := Session.handle rules v f ⟨reg, []⟩
    let outcome (r : Request) := (Handler.run (Session.carryOut rules v r) ⟨reg, []⟩).1
    (∀ r, Session.request? f = some (.joinRoom r) →
      let id : RoomId := ⟨r.serverId⟩
      (outcome (.joinRoom r) =
        if ∀ room ∈ reg.rooms.values, room.id ≠ id then .error (.roomNotFound id)
        else if ∃ room ∈ reg.rooms.values, room.id = id ∧ v.conn ∉ room.players ∧
            room.settings.maxPlayers.toNat ≤
              room.players.length + room.settings.aiPlayers.toNat then
          .error (.roomFull id)
        else if reg.account? v.conn = none then .error .notLoggedIn
        else .ok ()) ∧
      (outcome (.joinRoom r) =
        match (reg.changeSeat id v.conn).1 with
        | .error e => .error (.ofRegistry e)
        | .ok _ => if reg.account? v.conn = none then .error .notLoggedIn else .ok ()) ∧
      (outcome (.joinRoom r) = .ok () →
        ∃ room ∈ reg.rooms.values, room.id = id ∧ Session.Joins v room r.ticketId reg turn)) ∧
    (∀ r, Session.request? f = some (.leaveRoom r) →
      (outcome (.leaveRoom r) =
        if reg.account? v.conn = none then .error .notLoggedIn
        else if ∃ room ∈ reg.rooms.values, room.owner ≠ v.conn ∧ v.conn ∈ room.players then .ok ()
        else .error .notJoined) ∧
      (outcome (.leaveRoom r) = .ok () →
        ∃ room, reg.visited? v.conn = some room ∧ Session.Leaves v room r.ticketId reg turn)) ∧
    (∀ room, reg.visited? v.conn = some room ↔
      ∃ o, o ≠ v.conn ∧ reg.roomOf? o = some room ∧ v.conn ∈ room.players) ∧
    (∀ r e, Session.request? f = some r → outcome r = .error e →
      turn = ⟨reg, [⟨v.conn, .resultMessage (e.answer r.ticketId)⟩]⟩) ∧
    l'.registry = turn.registry ∧
    ∀ c, l'.lines.get? c = (l.lines.get? c).map (·.pushAll (Offer.messagesFor c turn.offers)) := by
  intro reg l' turn outcome
  have hco : reg.Coherent := h.coherent hn
  refine ⟨fun r hrequest => ⟨?_, ?_, ?_⟩, fun r hrequest => ⟨?_, ?_⟩, fun room => ?_,
    fun r e hrequest he => ?_, ?_, fun c => ?_⟩
  · exact Session.joinRoom_outcome hco.toFiled r
  · exact Session.joinRoom_outcome_eq_changeSeat r
  · exact Session.joins_of_served hco h.housed h.allFit hrequest
  · exact Session.leaveRoom_outcome hco r
  · exact Session.leaves_of_served hco h.housed h.allFit hrequest
  · exact hco.visited?_eq_some_iff v.conn
  · exact Session.handle_of_refused hrequest he
  · exact registry_takeTurn ..
  · exact get?_lines_takeTurn ..

/-- The first user of the crowd, which visits the second, takes the seat in its own room again. The
watcher is shown the room left and then the own one. The second user has no seat to leave. -/
theorem visitor_goes_home :
    let l := takeTurns .plain opened crowd
    let turn := Session.handle .plain (.numbered 1) (sentFrame (.joinServer ⟨0, 1, 9⟩))
    (∀ m ∈ moments .plain opened crowd, m.registry.NumbersLeft) ∧
      (∃ left own : Room, left.players = [⟨2⟩, ⟨1⟩] ∧ own.players = [⟨1⟩] ∧
        Moved ⟨1⟩ own l.registry (turn ⟨l.registry, []⟩).registry ∧
        Offer.messagesFor ⟨3⟩ (turn ⟨l.registry, []⟩).offers =
          [.gameServerData ((left.without ⟨1⟩).snapshot 9),
            .gameServerData ((own.seat ⟨1⟩).snapshot 9)]) ∧
      (Handler.run (Session.carryOut .plain (.numbered 2) (.leaveRoom ⟨0, 9⟩))
        ⟨l.registry, []⟩).1 = .error .notJoined := by
  intro l turn
  have hn : ∀ m ∈ moments .plain opened crowd, m.registry.NumbersLeft := by decide +kernel
  obtain ⟨hjoin, -⟩ := seats_as_registry_decides (passes_takeTurns .plain opened crowd) hn
    (.numbered 1) (sentFrame (.joinServer ⟨0, 1, 9⟩))
  obtain ⟨hdecided, -, hjoins⟩ := hjoin ⟨0, 1, 9⟩ (by decide +kernel)
  rw [if_neg (by decide +kernel), if_neg (by decide +kernel), if_neg (by decide +kernel)]
    at hdecided
  obtain ⟨own, hown, hid, hjoined⟩ := hjoins hdecided
  have hplayers : ∀ r ∈ (takeTurns .plain opened crowd).registry.rooms.values,
      r.id = ⟨1⟩ → r.players = [⟨1⟩] := by decide +kernel
  obtain ⟨left, hleft, hguests⟩ := Option.map_eq_some_iff.mp (show
    (l.registry.visited? ⟨1⟩).map (fun r => (r.players, r.id)) = some ([⟨2⟩, ⟨1⟩], ⟨2⟩) by
      decide +kernel)
  obtain ⟨hlisted, hother⟩ := Prod.mk.inj hguests
  have hwatches : l.registry.subscribes .rooms ⟨3⟩ = true := by decide +kernel
  have hgone : l.registry.left? own.id (Visitor.numbered 1).conn = some (left.without ⟨1⟩) := by
    unfold left?
    rw [show l.registry.visited? (Visitor.numbered 1).conn = some left from hleft, hid,
      Option.filter_some, hother]
    rfl
  have hconn : (Visitor.numbered 1).conn ≠ ⟨3⟩ := by decide
  have htold := hjoined.told ⟨3⟩
  rw [hwatches, if_pos rfl, if_pos rfl, if_neg hconn, hgone] at htold
  obtain ⟨-, hleave, -⟩ := seats_as_registry_decides (passes_takeTurns .plain opened crowd) hn
    (.numbered 2) (sentFrame (.leaveServer ⟨0, 9⟩))
  obtain ⟨hstays, -⟩ := hleave ⟨0, 9⟩ (by decide +kernel)
  rw [if_neg (by decide +kernel), if_neg (by decide +kernel)] at hstays
  exact ⟨hn, ⟨left, own, hlisted, hplayers own hown hid, hjoined.moved, htold⟩, hstays⟩

end Lobby

end GameLobby
