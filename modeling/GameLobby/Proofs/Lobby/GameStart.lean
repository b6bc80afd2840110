import GameLobby.Proofs.Lobby.Departures
import GameLobby.Proofs.Lobby.Moves
import GameLobby.Proofs.Lobby.RoomNews
import GameLobby.Proofs.Registry.Headcount
import GameLobby.Proofs.Registry.Hosting
import GameLobby.Proofs.Session.Outcome

/-!
# The start of a game

When a game starts, the players of its room see it for the last time, as running, before those who
watch rooms hear that it is gone. The players are looked up among the accounts, of which everybody
with a seat has one (`Coherent.seated_perm`), and their number fits the byte in which it is shown
(`Passes.counted`). Main statement: `start_reaches_players`.
-/

namespace GameLobby

open Registry

/-! ## Players -/

/-- The players of a room are the outboxes of the accounts that have a seat in it. -/
theorem Registry.Coherent.seated_perm {reg : Registry} (h : reg.Coherent) (hho : reg.Housed)
    {o : ConnectionId} {room : Room} (hroom : reg.roomOf? o = some room) :
    ((reg.accountsInOrder.filter fun a => room.hasSeat a.conn).map (·.outbox)).Perm
      room.players := by
  have hall : (reg.accountsInOrder.map (·.outbox)).Nodup :=
    ((ascending_perm _ _).map _).nodup_iff.mpr (hho.map_outbox_values ▸ reg.accounts.nodup)
  have hnodup : ((reg.accountsInOrder.filter fun a => room.hasSeat a.conn).map
      (·.outbox)).Nodup := hall.sublist (List.filter_sublist.map _)
  refine (List.perm_ext_iff_of_nodup hnodup (h.players_nodup hroom)).mpr fun c => ?_
  constructor
  · intro hc
    obtain ⟨a, ha, rfl⟩ := List.mem_map.mp hc
    obtain ⟨hmem, hseat⟩ := List.mem_filter.mp ha
    obtain ⟨conn, hconn⟩ := Table.mem_values_iff.mp (mem_ascending.mp hmem)
    rw [hho conn a hconn, ← h.conn_eq hconn]
    exact Room.hasSeat_iff.mp hseat
  · intro hc
    -- the owner is logged in, and so is every guest
    obtain ⟨a, ha⟩ : ∃ a, reg.account? c = some a := by
      by_cases hco : c = o
      · obtain ⟨a, ha, -⟩ := h.owner_account hroom
        exact ⟨a, hco ▸ ha⟩
      · obtain ⟨a, ha, -⟩ := h.guest_joined hroom hc hco
        exact ⟨a, ha⟩
    have hmem : a ∈ reg.accountsInOrder := mem_ascending.mpr (Table.mem_values_iff.mpr ⟨c, ha⟩)
    have hseat : room.hasSeat a.conn := Room.hasSeat_iff.mpr (h.conn_eq ha ▸ hc)
    exact List.mem_map.mpr ⟨a, List.mem_filter.mpr ⟨hmem, hseat⟩, hho c a ha⟩

theorem Event.counted_turn (rules : Rules) (e : Event) {reg : Registry} (h : reg.Counted) :
    (e.turn rules ⟨reg, []⟩).registry.Counted := by
  rw [Event.registry_turn]
  refine (e.deeds_proper rules reg).preserves h fun reg d hproper hcounted => ?_
  cases d with
  | call k => exact hcounted.apply hproper.2.2
  | send | tell | exhibit => exact hcounted

/-- The players of every room of a lobby can be counted in a byte. -/
theorem Lobby.Passes.counted {rules : Rules} {l : Lobby} {ms : List Moment}
    (h : Passes rules opened ms l) : l.registry.Counted :=
  h.preserves (fun _ _ => trivial) counted_empty fun _ _ e (_ : True) hc => e.counted_turn _ hc

namespace Session

open Deed

variable {v : Visitor} {reg : Registry} {room : Room} {r : RemoveServer}

/-- What is done when a game starts. -/
def startDeeds (v : Visitor) (reg : Registry) (room : Room) (r : RemoveServer) : List Deed :=
  gameStarted v reg room r.ticketId ++
    [.call (.closeRoom v.conn), .tell (.roomRemoved r), .ok v r.ticketId]

theorem closeRoomPlan_of_running (hroom : reg.roomOf? v.conn = some room)
    (hid : r.serverId = room.id.number) (hrunning : r.running = true) :
    closeRoomPlan v reg r = .ok (startDeeds v reg room r) := by
  have hown : ownRoom? v reg ⟨r.serverId⟩ = .ok room := by
    unfold ownRoom?
    rw [hroom, hid]
    exact if_pos rfl
  unfold closeRoomPlan
  rw [hown]
  dsimp only
  rw [if_pos hrunning]
  rfl

/-- A room that was started is gone like any room that is closed. -/
theorem dissolved_startDeeds (hco : reg.Coherent) (hroom : reg.roomOf? v.conn = some room) :
    Dissolved room reg (afterAll reg (startDeeds v reg room r)) := by
  have hafter : afterAll reg (startDeeds v reg room r) =
      ((reg.editRoom v.conn fun l => { l with running := true }).2.closeRoom v.conn).2 := rfl
  rw [hafter, closeRoom_editRoom hroom]
  exact hco.dissolved hroom

theorem aboutRooms_startDeeds (hco : reg.Coherent) (hho : reg.Housed) (hfit : reg.AllFit)
    (hroom : reg.roomOf? v.conn = some room) : ∀ d ∈ startDeeds v reg room r, d.AboutRooms := by
  have hplayers := hco.seated_perm hho hroom
  have hfits : (Message.gameServerData
      (({ room with running := true } : Room).snapshot r.ticketId)).fits :=
    (Room.fits_snapshot_iff _ r.ticketId).mpr (hfit v.conn room hroom)
  refine List.forall_mem_append.mpr ⟨List.forall_mem_cons.mpr ⟨trivial,
    List.forall_mem_singleton.mpr ⟨?_, hfits⟩⟩, List.forall_mem_cons.mpr ⟨trivial,
    List.forall_mem_cons.mpr ⟨aboutRooms_tellRemoved r, List.forall_mem_singleton.mpr trivial⟩⟩⟩
  exact hplayers.nodup_iff.mpr (hco.players_nodup hroom)

/-- What a connection hears of the start of a game. -/
def startHeard (v : Visitor) (reg : Registry) (room : Room) (r : RemoveServer) (c : ConnectionId) :
    List Message :=
  (if c ∈ room.players then
    [.gameServerData (({ room with running := true } : Room).snapshot r.ticketId)] else []) ++
  (if reg.subscribes .rooms c then [.removeServer r] else []) ++
  if v.conn = c then [.resultMessage (.ok r.ticketId)] else []

theorem messagesFor_startDeeds (rules : Rules) (hco : reg.Coherent) (hho : reg.Housed)
    (hfit : reg.AllFit) (hroom : reg.roomOf? v.conn = some room) (c : ConnectionId) :
    Offer.messagesFor c (offersAll rules reg (startDeeds v reg room r)) =
      startHeard v reg room r c := by
  have hmem : c ∈ ((reg.accountsInOrder.filter fun a =>
      ({ room with running := true } : Room).hasSeat a.conn).map (·.outbox)) ↔ c ∈ room.players :=
    (hco.seated_perm hho hroom).mem_iff
  rw [messagesFor_offersAll rules (aboutRooms_startDeeds hco hho hfit hroom) hho]
  unfold startDeeds startHeard gameStarted
  simp [heard, Deed.ok, News.message, hmem]

/-- All that is heard of the start of a game fits a frame. -/
theorem fits_startHeard (hfit : reg.AllFit) (hroom : reg.roomOf? v.conn = some room)
    (c : ConnectionId) : ∀ m ∈ startHeard v reg room r c, m.fits := by
  have hfits : (Message.gameServerData
      (({ room with running := true } : Room).snapshot r.ticketId)).fits :=
    (Room.fits_snapshot_iff _ r.ticketId).mpr (hfit v.conn room hroom)
  intro m hm
  unfold startHeard at hm
  simp only [List.mem_append, List.mem_ite_nil_right, List.mem_singleton] at hm
  rcases hm with (⟨-, rfl⟩ | ⟨-, rfl⟩) | ⟨-, rfl⟩
  · exact hfits
  · exact Message.fits_removeServer r
  · exact Message.fits_ok r.ticketId

/-- In what order the start of a game is told: to the players, to those who watch rooms, and to the
owner. -/
theorem offers_startDeeds (rules : Rules) (hco : reg.Coherent) (hho : reg.Housed)
    (hfit : reg.AllFit) (hroom : reg.roomOf? v.conn = some room) :
    ∃ players watchers : List ConnectionId,
      players.Perm room.players ∧ watchers.Nodup ∧
      (∀ c, c ∈ watchers ↔ reg.subscribes .rooms c) ∧
      offersAll rules reg (startDeeds v reg room r) =
        players.map (⟨·, .gameServerData
          (({ room with running := true } : Room).snapshot r.ticketId)⟩) ++
        watchers.map (⟨·, .removeServer r⟩) ++ [⟨v.conn, .resultMessage (.ok r.ticketId)⟩] := by
  have hshown : (Message.gameServerData
      (({ room with running := true } : Room).snapshot r.ticketId)).fits :=
    (Room.fits_snapshot_iff _ r.ticketId).mpr (hfit v.conn room hroom)
  have hsame : reg.SameAccounts (afterAll reg (startDeeds v reg room r)) :=
    sameAccounts_afterAll (aboutRooms_startDeeds hco hho hfit hroom) reg
  have hhoused := hsame.housed hho
  refine ⟨_, (News.roomRemoved r).recipients (afterAll reg (startDeeds v reg room r)),
    hco.seated_perm hho hroom, hhoused.nodup_recipients _, fun c => ?_, ?_⟩
  · rw [hhoused.mem_recipients_iff, hsame.subscribes_eq]
    rfl
  · have hremoved : (News.roomRemoved r).offers rules.config.announceLogins
        (afterAll reg (startDeeds v reg room r)) =
        ((News.roomRemoved r).recipients (afterAll reg (startDeeds v reg room r))).map
          (⟨·, .removeServer r⟩) := by
      unfold News.offers
      rw [show (News.roomRemoved r).chatLine rules.config.announceLogins = [] from rfl,
        List.flatMap_singleton]
      exact Message.offers_of_fits (Message.fits_removeServer r) _
    show Message.offers _ _ ++ ((News.roomRemoved r).offers rules.config.announceLogins
      (afterAll reg (startDeeds v reg room r)) ++ [_]) = _
    rw [hremoved, Message.offers_of_fits hshown, List.append_assoc]
    rfl

end Session

namespace Lobby

/-- **Starts.** In whatever state a lobby is, when the owner of a room starts its game everybody
with a seat in it is shown the room once, as running and with its headcount, then everybody who
watches rooms is told once that it is gone, and then the owner has its answer. An outbox with room
for what is meant for it takes in just that, in frames from which the messages can be read. The room
is gone, its guests have joined none, and everything else is as it was, also the seat that the owner
has in the room of somebody else. -/
theorem start_reaches_players {rules : Rules} {l : Lobby} {ms : List Moment}
    (h : Passes rules opened ms l) (hn : ∀ m ∈ ms, m.registry.NumbersLeft) {v : Visitor}
    {f : Frame} {r : RemoveServer} {room : Room}
    (hroom : l.registry.roomOf? v.conn = some room)
    (hrequest : Session.request? f = some (.closeRoom r)) (hid : r.serverId = room.id.number)
    (hrunning : r.running = true) :
    let reg := l.registry
    let offers := (Session.handle rules v f ⟨reg, []⟩).offers
    let l' := l.takeTurn (Session.handle rules v f)
    let shown := ({ room with running := true } : Room).snapshot r.ticketId
    let heard (c : ConnectionId) : List Message :=
      (if c ∈ room.players then [.gameServerData shown] else []) ++
      (if reg.subscribes .rooms c then [.removeServer r] else []) ++
      if v.conn = c then [.resultMessage (.ok r.ticketId)] else []
    (Handler.run (Session.carryOut rules v (.closeRoom r)) ⟨reg, []⟩).1 = .ok () ∧
    (v.conn ∈ room.players ∧ room.players.Nodup) ∧
    (shown.serverId = r.serverId ∧ shown.running = true ∧ shown.ticketId = r.ticketId ∧
      shown.currPlayers.toNat = room.players.length) ∧
    (∃ players watchers : List ConnectionId, players.Perm room.players ∧ watchers.Nodup ∧
      (∀ c, c ∈ watchers ↔ reg.subscribes .rooms c) ∧
      offers = players.map (⟨·, .gameServerData shown⟩) ++
        watchers.map (⟨·, .removeServer r⟩) ++ [⟨v.conn, .resultMessage (.ok r.ticketId)⟩]) ∧
    (∀ c, Offer.messagesFor c offers = heard c ∧
      (∀ line, l.lines.get? c = some line → line.outbox.HasRoom (heard c) →
        ∃ line', l'.lines.get? c = some line' ∧
          line'.outbox.queue = line.outbox.queue ++ (heard c).map (·.frame)) ∧
      ∀ m ∈ heard c, m.frame.kind = .applicationMessage ∧ m.frame.payload.length ≤ 1024 ∧
        Received.ofPayload m.frame.payload = .ok ⟨m.type.code, m.trimmed⟩) ∧
    Dissolved room reg l'.registry := by
  intro reg offers l' shown heard
  have hco : reg.Coherent := h.coherent hn
  have hho : reg.Housed := h.housed
  have hplan : Session.plan rules v reg (.closeRoom r) = .ok (Session.startDeeds v reg room r) :=
    Session.closeRoomPlan_of_running hroom hid hrunning
  have hturn : Session.handle rules v f ⟨reg, []⟩ = _ := Session.handle_of_plan hrequest hplan
  have hoffers : offers = Deed.offersAll rules reg (Session.startDeeds v reg room r) :=
    congrArg Turn.offers hturn
  have hheard : ∀ c, Offer.messagesFor c offers = heard c := fun c =>
    hoffers ▸ Session.messagesFor_startDeeds rules hco hho h.allFit hroom c
  refine ⟨Session.served_of_plan hplan, ⟨hco.owner_mem_players hroom, hco.players_nodup hroom⟩,
    ⟨hid.symm, rfl, rfl, ?_⟩, ?_,
    fun c => ⟨hheard c, fun line hline htakes => ?_, fun m hm => ?_⟩, ?_⟩
  · have hcount : room.headcount ≤ 255 := h.counted _ _ hroom
    exact @Room.currPlayers_snapshot { room with running := true } hcount r.ticketId
  · rw [hoffers]
    exact Session.offers_startDeeds rules hco hho h.allFit hroom
  · refine ⟨line.pushAll (heard c), ?_, ?_⟩
    · rw [get?_lines_takeTurn, hline, ← hheard c]
      rfl
    · have hall : (heard c).filter Message.fits = heard c :=
        List.filter_eq_self.mpr (Session.fits_startHeard h.allFit hroom c)
      show (line.outbox.pushAll (heard c)).queue = _
      rw [htakes.queue_pushAll, hall]
  · have hfits : m.fits := Session.fits_startHeard h.allFit hroom c m hm
    exact ⟨rfl, of_decide_eq_true hfits,
      Received.ofPayload_payload m (Message.short_of_fits hfits)⟩
  · rw [registry_takeTurn, hturn]
    exact Session.dissolved_startDeeds hco hroom

/-- The second user of the crowd starts its game. Its guest is shown the room with two players, and
the watcher is told that it is gone. -/
theorem crowd_starts_game :
    let l := takeTurns .plain gathered crowd
    let room : Room := ⟨⟨⟨[0x53], [], Text.utf8 "127.0.0.1", 5479, 0, 0, [], 4, 0, 0, 0, false, [],
      false, []⟩, false, 0⟩, ⟨2⟩, ⟨2⟩, ⟨2⟩, [⟨2⟩, ⟨1⟩]⟩
    let start : RemoveServer := ⟨2, true, 7⟩
    let shown := ({ room with running := true } : Room).snapshot 7
    let l' := l.takeTurn (Session.handle .plain (.numbered 2) (sentFrame (.removeServer start)))
    (∀ m ∈ moments .plain gathered crowd, m.registry.NumbersLeft) ∧
      l.registry.roomOf? ⟨2⟩ = some room ∧ shown.currPlayers.toNat = 2 ∧
      (∃ line line', l.lines.get? ⟨1⟩ = some line ∧ l'.lines.get? ⟨1⟩ = some line' ∧
        line'.outbox.queue = line.outbox.queue ++ [(Message.gameServerData shown).frame]) ∧
      (∃ line line', l.lines.get? ⟨3⟩ = some line ∧ l'.lines.get? ⟨3⟩ = some line' ∧
        line'.outbox.queue = line.outbox.queue ++ [(Message.removeServer start).frame]) ∧
      Dissolved room l.registry l'.registry := by
  intro l room start shown l'
  have hn : ∀ m ∈ moments .plain gathered crowd, m.registry.NumbersLeft := by decide +kernel
  have hroom : l.registry.roomOf? ⟨2⟩ = some room := by decide +kernel
  have hrequest : Session.request? (sentFrame (.removeServer start)) = some (.closeRoom start) := by
    decide +kernel
  obtain ⟨-, -, ⟨-, -, -, hcount⟩, -, hheard, hgone⟩ := @start_reaches_players .plain l _
    (passes_gathered crowd) hn (.numbered 2) _ start room hroom hrequest rfl rfl
  have hguest : (l.lines.get? ⟨1⟩).any
      fun line => line.outbox.HasRoom [.gameServerData shown] := by decide +kernel
  have hwatcher : (l.lines.get? ⟨3⟩).any
      fun line => line.outbox.HasRoom [.removeServer start] := by decide +kernel
  obtain ⟨line₁, hline₁, htakes₁⟩ := (Option.any_eq_true ..).mp hguest
  obtain ⟨line₃, hline₃, htakes₃⟩ := (Option.any_eq_true ..).mp hwatcher
  have hno : l.registry.subscribes .rooms ⟨1⟩ = false := by decide +kernel
  have hyes : l.registry.subscribes .rooms ⟨3⟩ = true := by decide +kernel
  refine ⟨hn, hroom, hcount, ⟨line₁, ?_⟩, ⟨line₃, ?_⟩, hgone⟩
  · have hqueue := (hheard ⟨1⟩).2.1 line₁ hline₁
    dsimp only at hqueue
    rw [hno] at hqueue
    obtain ⟨line', hline', hqueue⟩ := hqueue (of_decide_eq_true htakes₁)
    exact ⟨line', hline₁, hline', hqueue⟩
  · have hqueue := (hheard ⟨3⟩).2.1 line₃ hline₃
    dsimp only at hqueue
    rw [hyes] at hqueue
    obtain ⟨line', hline', hqueue⟩ := hqueue (of_decide_eq_true htakes₃)
    exact ⟨line', hline₃, hline', hqueue⟩

end Lobby

end GameLobby
