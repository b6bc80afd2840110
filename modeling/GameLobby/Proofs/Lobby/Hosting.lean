import GameLobby.Proofs.Lobby.Departures
import GameLobby.Proofs.Lobby.Moves
import GameLobby.Proofs.Lobby.RoomNews
import GameLobby.Proofs.Registry.Hosting
import GameLobby.Proofs.Session.Outcome

/-!
# Offering a room

Whoever offers a room gives up the one it owned and its seat in the room of somebody else, in three
calls with news in between. Once the request is looked at none of the calls can fail. Main
statement: `hosting_replaces_all`.
-/

namespace GameLobby

open Registry

namespace Session

open Deed

variable {rules : Rules} {v : Visitor} {reg : Registry} {r : AddGameServer}

/-- A room can be offered by a user whose client is reachable and whose settings can be shown. -/
def Offers (rules : Rules) (v : Visitor) (reg : Registry) (r : AddGameServer) (a : Account) :
    Prop :=
  reg.account? v.conn = some a ∧ r.port ≠ rules.config.bridgeErrorPort ∧
    (Message.gameServerData
      ((offeredSettings rules v r).snapshot ⟨0⟩ a.uid r.ticketId)).payload.length ≤ 1024

/-- The room that a user offers. -/
def newRoom (rules : Rules) (v : Visitor) (reg : Registry) (r : AddGameServer) (a : Account) :
    Room :=
  .opened ⟨reg.lastRoomId + 1⟩ v.conn a.uid (offeredSettings rules v r)

/-- What is done when a room is offered. -/
def hostingDeeds (v : Visitor) (reg : Registry) (room : Room) (ticketId : UInt32) : List Deed :=
  roomClosed v reg (fun old => ⟨old.id.number, old.running, ticketId⟩) ++
    seatGivenUp v (reg.closeRoom v.conn).2 ticketId ++ roomOffered v room ticketId

theorem openRoomPlan_of_offers {a : Account} (h : Offers rules v reg r a) :
    openRoomPlan rules v reg r =
      .ok (hostingDeeds v reg (newRoom rules v reg r a) r.ticketId) := by
  obtain ⟨ha, hport, hle⟩ := h
  have hfits : (Message.gameServerData
      ((offeredSettings rules v r).snapshot ⟨0⟩ a.uid r.ticketId)).fits := decide_eq_true hle
  unfold openRoomPlan
  rw [ha]
  dsimp only
  rw [if_neg hport, hfits]
  rfl

/-- A room is accepted exactly if it can be offered. -/
theorem served_openRoom_iff :
    (Handler.run (carryOut rules v (.openRoom r)) ⟨reg, []⟩).1 = .ok () ↔
      ∃ a, Offers rules v reg r a := by
  rw [outcome_eq]
  show (openRoomPlan rules v reg r).map _ = _ ↔ _
  constructor
  · intro hok
    cases hplan : openRoomPlan rules v reg r with
    | error e =>
      rw [hplan] at hok
      exact nomatch hok
    | ok ds =>
      obtain ⟨a, ha, hfits, -⟩ := openRoomPlan_ok hplan
      refine ⟨a, ha, fun hport => ?_, of_decide_eq_true hfits⟩
      unfold openRoomPlan at hplan
      rw [ha] at hplan
      dsimp only at hplan
      rw [if_pos hport] at hplan
      exact nomatch hplan
  · rintro ⟨a, ha⟩
    rw [openRoomPlan_of_offers ha]
    rfl

/-- The seat that is given up is the one in the room that the sender visits. -/
theorem seatGivenUp_eq (h : reg.Coherent) (ticketId : UInt32) :
    seatGivenUp v reg ticketId =
      match reg.visited? v.conn with
      | none => []
      | some room =>
        [.call (.leaveSeat room.id v.conn), .tellRoom ticketId (room.without v.conn)] := by
  unfold seatGivenUp
  cases hv : reg.visited? v.conn with
  | none => rw [h.joined?_of_visited?_none hv]
  | some room =>
    rw [(h.joined?_of_visited? hv).1]
    dsimp only
    rw [(h.leaveSeat_visited hv).1]

theorem unseated_seatGivenUp (h : reg.Coherent) (ticketId : UInt32) :
    Unseated v.conn reg (afterAll reg (seatGivenUp v reg ticketId)) := by
  rw [seatGivenUp_eq h]
  cases hv : reg.visited? v.conn with
  | none => exact h.unseated_of_none hv
  | some room => exact (h.leaveSeat_visited hv).2

/-- What is done when a room is offered leaves a registry in which it is the only one of its owner.
-/
theorem hosted_hostingDeeds (hco : reg.Coherent) (a : Account) :
    Hosted v.conn (newRoom rules v reg r a) reg
      (afterAll reg (hostingDeeds v reg (newRoom rules v reg r a) r.ticketId)) := by
  have hclosed : (reg.closeRoom v.conn).2.Coherent := hco.closeRoom v.conn
  have hleft : (afterAll (reg.closeRoom v.conn).2
      (seatGivenUp v (reg.closeRoom v.conn).2 r.ticketId)).Coherent :=
    seatGivenUp_preserves r.ticketId hclosed fun id => hclosed.leaveSeat id v.conn
  unfold hostingDeeds
  rw [afterAll_append, afterAll_append, afterAll_roomClosed]
  exact hco.hosted hleft.toWellFormed (unseated_seatGivenUp hclosed r.ticketId) a.uid
    (offeredSettings rules v r)

/-- What those who watch rooms are told when a connection gives up its room and its seat in the room
of somebody else. -/
def givenUpNews (reg : Registry) (conn : ConnectionId) (ticketId : UInt32) : List Message :=
  ((reg.roomOf? conn).map fun room =>
    Message.removeServer ⟨room.id.number, room.running, ticketId⟩).toList ++
  ((reg.visited? conn).map fun room =>
    Message.gameServerData ((room.without conn).snapshot ticketId)).toList

theorem aboutRooms_roomClosed (notice : Room → RemoveServer) :
    ∀ d ∈ roomClosed v reg notice, d.AboutRooms := by
  unfold roomClosed
  refine List.forall_mem_cons.mpr ⟨trivial, ?_⟩
  split
  · exact List.forall_mem_nil _
  · exact List.forall_mem_singleton.mpr (aboutRooms_tellRemoved _)

theorem aboutRooms_seatGivenUp (hfit : reg.AllFit) (ticketId : UInt32) :
    ∀ d ∈ seatGivenUp v reg ticketId, d.AboutRooms := by
  unfold seatGivenUp
  split
  · exact List.forall_mem_nil _
  refine List.forall_mem_cons.mpr ⟨trivial, ?_⟩
  split
  · exact List.forall_mem_nil _
  · rename_i room hroom
    exact List.forall_mem_singleton.mpr
      (aboutRooms_tellRoom (hfit.leaveSeat_answer hroom) ticketId)

theorem aboutRooms_roomOffered {room : Room} (h : room.settings.Fits) (ticketId : UInt32) :
    ∀ d ∈ roomOffered v room ticketId, d.AboutRooms :=
  List.forall_mem_cons.mpr ⟨trivial, List.forall_mem_cons.mpr ⟨trivial,
    List.forall_mem_singleton.mpr (aboutRooms_tellRoom h ticketId)⟩⟩

/-- What a connection hears when a room is offered. -/
theorem messagesFor_hostingDeeds (hco : reg.Coherent) (hho : reg.Housed) (hfit : reg.AllFit)
    {a : Account} (ho : Offers rules v reg r a) (c : ConnectionId) :
    let room := newRoom rules v reg r a
    let watches := reg.subscribes .rooms c
    Offer.messagesFor c (offersAll rules reg (hostingDeeds v reg room r.ticketId)) =
      (if watches then givenUpNews reg v.conn r.ticketId else []) ++
        (if v.conn = c then [.resultId (.ok room.id.number r.ticketId)] else []) ++
        if watches then [.gameServerData (room.snapshot r.ticketId)] else [] := by
  intro room watches
  have hsettings : room.settings.Fits :=
    (RoomSettings.fits_snapshot_iff ..).mp (decide_eq_true ho.2.2)
  have habout : ∀ d ∈ hostingDeeds v reg room r.ticketId, d.AboutRooms :=
    List.forall_mem_append.mpr ⟨List.forall_mem_append.mpr ⟨aboutRooms_roomClosed _,
      aboutRooms_seatGivenUp (hfit.closeRoom v.conn) r.ticketId⟩,
      aboutRooms_roomOffered hsettings r.ticketId⟩
  rw [messagesFor_offersAll rules habout hho]
  unfold hostingDeeds
  rw [List.flatMap_append, List.flatMap_append, seatGivenUp_eq (hco.closeRoom v.conn),
    hco.visited?_closeRoom]
  unfold givenUpNews roomClosed roomOffered
  cases hw : reg.subscribes .rooms c <;> cases reg.roomOf? v.conn <;>
    cases reg.visited? v.conn <;> simp [watches, hw, heard, tellRoom, News.message]

end Session

namespace Lobby

/-- **Hosting.** In whatever state a lobby is, a room that a client offers is accepted exactly if
the client is logged in, says that it can be reached, and has settings that can be shown. Whatever
the client had, a room, a seat in the room of somebody else, both or neither, it then has the new
room and no other, a seat in it and nowhere else, and no joined room. The room that it owned is not
found any more and its players have joined none; everybody else has what they had. Those who watch
rooms hear of the room that is gone and of the room that was left, if there are such, and then of
the new one, and only the client hears its number. -/
theorem hosting_replaces_all {rules : Rules} {l : Lobby} {ms : List Moment}
    (h : Passes rules opened ms l) (hn : ∀ m ∈ ms, m.registry.NumbersLeft)
    (hl : l.registry.NumbersLeft) (v : Visitor) {f : Frame} {r : AddGameServer}
    (hrequest : Session.request? f = some (.openRoom r)) :
    let reg := l.registry
    let offers := (Session.handle rules v f ⟨reg, []⟩).offers
    let l' := l.takeTurn (Session.handle rules v f)
    let settings := Session.offeredSettings rules v r
    let outcome := (Handler.run (Session.carryOut rules v (.openRoom r)) ⟨reg, []⟩).1
    settings = ⟨r.name, r.description,
      Text.utf8 (if r.port = rules.config.defaultGamePort then v.peer.text else v.host.text),
      r.port, r.serverType, r.lobbyId, r.version, r.maxPlayers, r.aiPlayers, r.level, r.gameMode,
      r.hardcore, r.map, r.automaticJoin, r.data⟩ ∧
    (outcome = .ok () ↔ ∃ a, reg.account? v.conn = some a ∧
      r.port ≠ rules.config.bridgeErrorPort ∧
      (Message.gameServerData (settings.snapshot ⟨0⟩ a.uid r.ticketId)).payload.length ≤ 1024) ∧
    (∀ room, reg.visited? v.conn = some room ↔
      ∃ o, o ≠ v.conn ∧ reg.roomOf? o = some room ∧ v.conn ∈ room.players) ∧
    ∀ a, outcome = .ok () → reg.account? v.conn = some a →
      let room : Room := ⟨⟨settings, false, 0⟩, ⟨reg.lastRoomId + 1⟩, v.conn, a.uid, [v.conn]⟩
      room.id.number.toNat = reg.lastRoomId.toNat + 1 ∧
      Hosted v.conn room reg l'.registry ∧
      l'.registry.account? v.conn = some { a with joinedRoom := none } ∧
      (∀ o s, l'.registry.roomOf? o = some s → s.owner = v.conn ∨ v.conn ∈ s.players →
        s = room) ∧
      (∀ old, reg.roomOf? v.conn = some old → l'.registry.room? old.id = none ∧
        (∀ c b, l'.registry.account? c = some b → b.joinedRoom ≠ some old.id) ∧
        ∀ p ∈ old.players, ∃ b, l'.registry.account? p = some b ∧ b.joinedRoom = none) ∧
      ∀ c,
        Offer.messagesFor c offers =
          (if reg.subscribes .rooms c then
            ((reg.roomOf? v.conn).map fun old =>
              Message.removeServer ⟨old.id.number, old.running, r.ticketId⟩).toList ++
            ((reg.visited? v.conn).map fun left =>
              Message.gameServerData ((left.without v.conn).snapshot r.ticketId)).toList
          else []) ++
          (if v.conn = c then [.resultId (.ok room.id.number r.ticketId)] else []) ++
          (if reg.subscribes .rooms c then [.gameServerData (room.snapshot r.ticketId)] else []) ∧
        l'.lines.get? c = (l.lines.get? c).map (·.pushAll (Offer.messagesFor c offers)) := by
  intro reg offers l' settings outcome
  have hco : reg.Coherent := h.coherent hn
  have haccepted : outcome = .ok () ↔ ∃ a, Session.Offers rules v reg r a :=
    Session.served_openRoom_iff
  refine ⟨rfl, haccepted, fun room => hco.visited?_eq_some_iff v.conn, fun a hok ha => ?_⟩
  intro room
  obtain ⟨b, hoffers⟩ := haccepted.mp hok
  obtain rfl : a = b := Option.some.inj (ha.symm.trans hoffers.1)
  have hturn : Session.handle rules v f ⟨reg, []⟩ = _ :=
    Session.handle_of_plan hrequest (Session.openRoomPlan_of_offers hoffers)
  have hhosted : Hosted v.conn room reg l'.registry := by
    rw [registry_takeTurn, hturn]
    exact Session.hosted_hostingDeeds hco a
  refine ⟨hl.toNat_nextRoomId, hhosted, ?_, ?_, fun old hold => ⟨?_, ?_, ?_⟩, fun c => ⟨?_, ?_⟩⟩
  · rw [hhosted.account_eq, ha, Option.map_some, if_pos (.inl rfl)]
  · rintro o s hs (howner | hseat)
    · exact hhosted.owns_one hco hs howner
    · exact hhosted.seat_own hs hseat
  · exact hhosted.not_found hold (hco.id_ne_next hl hold)
  · exact fun c b hb => hhosted.no_note hold hb
  · exact fun p hp => hhosted.players_released hold hco hp
  · show Offer.messagesFor c (Session.handle rules v f ⟨reg, []⟩).offers = _
    rw [hturn]
    exact Session.messagesFor_hostingDeeds hco h.housed h.allFit hoffers c
  · exact get?_lines_takeTurn ..

/-- The first user of the crowd owns a room, visits another and offers a third. A watcher hears of
all three. -/
theorem visiting_owner_hosts_anew :
    let l := takeTurns .plain opened crowd
    let offered : AddGameServer := ⟨[0x54], [], 5479, 0, 0, [], 4, 0, 0, 0, false, [], false, [], 9⟩
    let turn := Session.handle .plain (.numbered 1) (sentFrame (.addGameServer offered))
    (∀ m ∈ moments .plain opened crowd, m.registry.NumbersLeft) ∧ l.registry.NumbersLeft ∧
      ∃ left room : Room, left.players = [⟨2⟩, ⟨1⟩] ∧ room.players = [⟨1⟩] ∧
        Hosted ⟨1⟩ room l.registry (l.takeTurn turn).registry ∧
        Offer.messagesFor ⟨3⟩ (turn ⟨l.registry, []⟩).offers =
          [.removeServer ⟨1, false, 9⟩, .gameServerData ((left.without ⟨1⟩).snapshot 9),
            .gameServerData (room.snapshot 9)] := by
  intro l offered turn
  have hn : ∀ m ∈ moments .plain opened crowd, m.registry.NumbersLeft := by decide +kernel
  have hl : l.registry.NumbersLeft := by decide +kernel
  have hrequest : Session.request? (sentFrame (.addGameServer offered)) =
      some (.openRoom offered) := by decide +kernel
  obtain ⟨-, haccepted, -, hroom⟩ :=
    hosting_replaces_all (passes_takeTurns .plain opened crowd) hn hl (.numbered 1) hrequest
  let a : Account := ⟨⟨1⟩, ⟨1⟩, [0x41], .none, some ⟨2⟩, ⟨1⟩⟩
  have ha : l.registry.account? ⟨1⟩ = some a := by decide +kernel
  let settings := Session.offeredSettings .plain (.numbered 1) offered
  have hfits : (Message.gameServerData (settings.snapshot ⟨0⟩ a.uid 9)).payload.length ≤ 1024 := by
    decide +kernel
  have hok := haccepted.mpr ⟨a, ha, by decide, hfits⟩
  obtain ⟨-, hhosted, -, -, -, htold⟩ := hroom a hok ha
  obtain ⟨old, hold, hgone⟩ := Option.map_eq_some_iff.mp (show
    (l.registry.roomOf? ⟨1⟩).map (fun r => (r.id.number, r.running)) = some (1, false) by
      decide +kernel)
  obtain ⟨hid, hrunning⟩ := Prod.mk.inj hgone
  obtain ⟨left, hleft, hplayers⟩ := Option.map_eq_some_iff.mp (show
    (l.registry.visited? ⟨1⟩).map (·.players) = some [⟨2⟩, ⟨1⟩] by decide +kernel)
  have hwatches : l.registry.subscribes .rooms ⟨3⟩ = true := by decide +kernel
  refine ⟨hn, hl, left, _, hplayers, rfl, hhosted, ?_⟩
  have hconn : (Visitor.numbered 1).conn ≠ ⟨3⟩ := by decide
  have hownroom : l.registry.roomOf? (Visitor.numbered 1).conn = some old := hold
  have hvisited : l.registry.visited? (Visitor.numbered 1).conn = some left := hleft
  rw [(htold ⟨3⟩).1, hwatches, if_pos rfl, if_neg hconn, hownroom, hvisited, if_pos rfl,
    Option.map_some, Option.map_some, hid, hrunning]
  rfl

end Lobby

end GameLobby
