import GameLobby.Proofs.Lobby.Moves
import GameLobby.Proofs.Lobby.Notices
import GameLobby.Proofs.Lobby.Reach

/-!
# Observers never drift

A client that watches rooms and whose outbox takes everything in has a right board after the turn in
which it started to watch, and after every turn since, whoever takes it (`Informed.turn`). So what
it knows of the rooms is what the registry has. Main statement: `board_shows_rooms`.
-/

namespace GameLobby

open Registry

/-! ## Boards after turns -/

/-- A connection watches rooms, and a board is right about all of them. -/
structure Informed (c : ConnectionId) (b : Board) (reg : Registry) : Prop where
  agrees : b.Agrees reg []
  watching : reg.Watching c

namespace Informed

variable {c : ConnectionId} {b : Board} {reg : Registry} (h : Informed c b reg)

include h

/-- The entries are those of the rooms that there are. -/
theorem isSome_get?_iff (hfiled : reg.Filed) (id : RoomId) :
    (b.get? id).isSome ↔ ∃ room ∈ reg.rooms.values, room.id = id := by
  have hright : b.Right reg id := h.agrees id List.not_mem_nil
  unfold Board.Right at hright
  constructor
  · intro hsome
    cases hroom : reg.room? id with
    | none =>
      rw [hroom] at hright
      rw [show b.get? id = none from hright] at hsome
      exact nomatch hsome
    | some room =>
      exact ⟨room, hfiled.mem_of_room? hroom, hfiled.id_of_room? hroom⟩
  · rintro ⟨room, hroom, rfl⟩
    rw [hfiled.room?_of_mem hroom] at hright
    obtain ⟨ticketId, hget⟩ := hright
    rw [hget]
    rfl

/-- The entry of a room is a frame that shows this room as it is. -/
theorem get?_room (hfiled : reg.Filed) (hfit : reg.AllFit) {room : Room}
    (hroom : room ∈ reg.rooms.values) :
    ∃ payload echo d, b.get? room.id = some payload ∧
      Received.ofPayload payload = .ok ⟨echo, .gameServerData d⟩ ∧
      payload = (Message.gameServerData (room.snapshot d.ticketId)).payload := by
  have hright : b.Right reg room.id := h.agrees room.id List.not_mem_nil
  unfold Board.Right at hright
  rw [hfiled.room?_of_mem hroom] at hright
  obtain ⟨ticketId, hget⟩ := hright
  have hfits := (room.fits_snapshot_iff ticketId).mpr (hfit.mem_values hroom)
  have hread := Received.ofPayload_payload _ (Message.short_of_fits hfits)
  exact ⟨_, _, _, hget, hread, rfl⟩

end Informed

/-- A turn keeps a board right. -/
theorem Informed.turn {rules : Rules} {l : Lobby} {e : Event} {c : ConnectionId} {b : Board}
    (h : Informed c b l.registry) (hwf : l.registry.WellFormed) (hfit : l.registry.AllFit)
    (hn : l.registry.NumbersLeft) (hstays : ¬ e.Unwatches c)
    (haccepted : (l.moment rules e).AcceptedBy c) :
    Informed c (b.receiveAll ((l.moment rules e).frames c))
      (e.turn rules ⟨l.registry, []⟩).registry := by
  obtain ⟨hagrees, hwatching⟩ := Deed.agrees_deeds rules (e.informs rules hwf hstays)
    (e.deeds_own rules hn) (e.deeds_show rules hfit) hwf h.watching
    (Lobby.fits_of_accepted haccepted) h.agrees
  rw [haccepted.frames_eq, Lobby.offers_moment, Event.registry_turn]
  exact ⟨hagrees, hwatching⟩

/-- What is done when a client starts to watch rooms. -/
theorem Session.deeds_watchRooms {rules : Rules} {v : Visitor} {reg : Registry}
    {r : RegObserverServerList}
    (hserved : (Handler.run (carryOut rules v (.watchRooms r)) ⟨reg, []⟩).1 = .ok ()) :
    ∃ a, reg.account? v.conn = some a ∧
      deeds rules v reg (.watchRooms r) = .call (.setSubscription v.conn .rooms true) ::
        (((reg.setSubscription v.conn .rooms true).2.roomsInOrder.map fun room =>
          .send v.conn (.gameServerData (room.snapshot r.ticketId))) ++ [.ok v r.ticketId]) := by
  have hplan := plan_of_served hserved
  simp only [plan] at hplan
  exact subscribePlan_ok hplan

/-- Whoever is logged in may watch. -/
theorem Session.served_watchRooms {rules : Rules} {v : Visitor} {reg : Registry}
    (r : RegObserverServerList) (hin : (reg.account? v.conn).isSome) :
    (Handler.run (carryOut rules v (.watchRooms r)) ⟨reg, []⟩).1 = .ok () := by
  obtain ⟨a, ha⟩ := Option.isSome_iff_exists.mp hin
  exact served_of_plan (by rw [plan, subscribePlan_of_some ha])

/-- A client that starts to watch has a right board. -/
theorem informed_watchRooms {rules : Rules} {l : Lobby} {v : Visitor} {f : Frame}
    {r : RegObserverServerList} (hrequest : Session.request? f = some (.watchRooms r))
    (hserved : (Handler.run (Session.carryOut rules v (.watchRooms r)) ⟨l.registry, []⟩).1 = .ok ())
    (hco : l.registry.Coherent) (hho : l.registry.Housed) (hfit : l.registry.AllFit)
    (hn : l.registry.NumbersLeft) (haccepted : (l.moment rules (.frame v f)).AcceptedBy v.conn) :
    Informed v.conn (Board.receiveAll .empty ((l.moment rules (.frame v f)).frames v.conn))
      ((Event.frame v f).turn rules ⟨l.registry, []⟩).registry := by
  obtain ⟨a, ha, hserve⟩ := Session.deeds_watchRooms hserved
  have hwf := hco.toWellFormed.setSubscription v.conn .rooms true
  have hown := (Event.frame v f).deeds_own rules hn
  have hshows := (Event.frame v f).deeds_show rules hfit
  have hfits := Lobby.fits_of_accepted haccepted
  have hdeeds : (Event.frame v f).deeds rules l.registry = Session.deeds rules v l.registry
      (.watchRooms r) := Session.frameDeeds_of_request hrequest
  rw [haccepted.frames_eq, Lobby.offers_moment, Event.registry_turn]
  rw [hdeeds, hserve] at hown hshows hfits ⊢
  -- the subscription is there before the rooms are shown
  have hwatching : (l.registry.setSubscription v.conn .rooms true).2.Watching v.conn := by
    obtain ⟨b, hb, houtbox, hsubs⟩ :=
      account?_apply (.setSubscription v.conn .rooms true) ha nofun
    refine ⟨b, hb, ?_, houtbox.trans (hho v.conn a ha)⟩
    rw [hsubs]
    unfold Call.subscriptions
    dsimp only
    rw [if_pos rfl]
    rfl
  obtain ⟨hagrees, hwatches⟩ := Deed.agrees_deeds rules (Session.watchRooms_informs hwf r.ticketId)
    hown.2 hshows.2 hwf hwatching hfits (Board.agrees_empty hwf.toFiled)
  exact ⟨hagrees, hwatches⟩

namespace Lobby

/-- What a history keeps of a board that is right. -/
theorem Passes.informed {rules : Rules} {l₀ l : Lobby} {ms : List Moment}
    (h : Passes rules l₀ ms l) {c : ConnectionId} {b : Board} (hco : l₀.registry.Coherent)
    (hfit : l₀.registry.AllFit) (hb : Informed c b l₀.registry)
    (hn : ∀ m ∈ ms, m.registry.NumbersLeft) (hstays : ∀ m ∈ ms, ¬ m.event.Unwatches c)
    (haccepted : ∀ m ∈ ms, m.AcceptedBy c) :
    l.registry.Coherent ∧ l.registry.AllFit ∧
      Informed c (b.receiveAll (ms.flatMap (·.frames c))) l.registry := by
  induction h with
  | refl => exact ⟨hco, hfit, hb⟩
  | quiet _ hq ih =>
    rw [hq.registry_eq]
    exact ih hn hstays haccepted
  | turn _ gatekeeper e ih =>
    simp only [List.forall_mem_append, List.forall_mem_singleton] at hn hstays haccepted
    obtain ⟨hco', hfit', hb'⟩ := ih hn.1 hstays.1 haccepted.1
    rw [registry_takeTurn]
    refine ⟨e.coherent_turn _ hco' hn.2, e.allFit_turn _ hfit', ?_⟩
    rw [List.flatMap_append, List.flatMap_singleton]
    unfold Board.receiveAll
    rw [List.foldl_append]
    exact hb'.turn hco'.toWellFormed hfit' hn.2 hstays.2 haccepted.2

/-- **Observers.** A client starts to watch rooms and goes on watching, and its outbox takes every
push in. Then, whatever has happened since, the frames that were queued for it make up a board with
an entry for each room in the registry and no others, and each entry shows its room as it is. -/
theorem board_shows_rooms {rules : Rules} {before after : List Moment} {l₀ l : Lobby} {v : Visitor}
    {f : Frame} {r : RegObserverServerList} (hbefore : Passes rules opened before l₀)
    (hrequest : Session.request? f = some (.watchRooms r))
    (hserved :
      (Handler.run (Session.carryOut rules v (.watchRooms r)) ⟨l₀.registry, []⟩).1 = .ok ())
    (hafter : Passes rules (l₀.takeTurn ((Event.frame v f).turn rules)) after l)
    (hn : ∀ m ∈ before ++ l₀.moment rules (.frame v f) :: after, m.registry.NumbersLeft)
    (hstays : ∀ m ∈ after, ¬ m.event.Unwatches v.conn)
    (haccepted : ∀ m ∈ l₀.moment rules (.frame v f) :: after, m.AcceptedBy v.conn) :
    let frames := (l₀.moment rules (.frame v f) :: after).flatMap (·.frames v.conn)
    let board := Board.receiveAll .empty frames
    (∀ id, (board.get? id).isSome ↔ ∃ room ∈ l.registry.rooms.values, room.id = id) ∧
    ∀ room ∈ l.registry.rooms.values, ∃ payload echo d, board.get? room.id = some payload ∧
      Received.ofPayload payload = .ok ⟨echo, .gameServerData d⟩ ∧
      payload = (Message.gameServerData (room.snapshot d.ticketId)).payload := by
  intro frames board
  simp only [List.forall_mem_append, List.forall_mem_cons] at hn haccepted
  obtain ⟨hnbefore, hn₀, hnafter⟩ := hn
  have hco₀ := hbefore.coherent hnbefore
  have hfit₀ := hbefore.allFit
  have hinformed := informed_watchRooms hrequest hserved hco₀ hbefore.housed hfit₀ hn₀
    haccepted.1
  have hco := (Event.frame v f).coherent_turn rules hco₀ hn₀
  have hfit := (Event.frame v f).allFit_turn rules hfit₀
  rw [← registry_takeTurn] at hinformed hco hfit
  obtain ⟨hco', hfit', hinformed'⟩ := hafter.informed hco hfit hinformed hnafter hstays haccepted.2
  have hboard : Informed v.conn board l.registry := by
    show Informed v.conn (Board.receiveAll .empty frames) l.registry
    unfold Board.receiveAll at hinformed' ⊢
    rw [← List.foldl_append] at hinformed'
    exact hinformed'
  exact ⟨hboard.isSome_get?_iff hco'.toFiled, fun room hroom =>
    hboard.get?_room hco'.toFiled hfit' hroom⟩

/-- The second user watches rooms from before it takes its seat, and then knows of both players. -/
theorem guest_watches_own_seat :
    let l := (opened.visitedBy (.numbered 1)).visitedBy (.numbered 2)
    let l₀ := takeTurns .plain l (evening.take 3)
    let watch := Event.sent 2 (.regObserverServerList ⟨true, 0, 0, 0, 9⟩)
    let l₁ := l₀.takeTurn (watch.turn .plain)
    let frames := (l₀.moment .plain watch :: moments .plain l₁ (evening.drop 3)).flatMap
      (·.frames ⟨2⟩)
    ∃ (room : Room) (ticketId : UInt32), room.players = [⟨1⟩, ⟨2⟩] ∧
      (Board.receiveAll .empty frames).get? room.id =
        some (Message.gameServerData (room.snapshot ticketId)).payload := by
  intro l l₀ watch l₁ frames
  have hpair : Passes .plain opened [] l :=
    .quiet (.quiet .refl (quiet_visitedBy ..)) (quiet_visitedBy ..)
  have hbefore := hpair.trans (passes_takeTurns .plain l (evening.take 3))
  have hplayers : (takeTurns .plain l₁ (evening.drop 3)).registry.rooms.values.map (·.players) =
      [[⟨1⟩, ⟨2⟩]] := by decide +kernel
  have hseated : [⟨1⟩, ⟨2⟩] ∈
      (takeTurns .plain l₁ (evening.drop 3)).registry.rooms.values.map (·.players) := by
    rw [hplayers]
    exact List.mem_singleton_self _
  obtain ⟨room, hroom, hseats⟩ := List.mem_map.mp hseated
  have hin : (l₀.registry.account? ⟨2⟩).isSome := by decide +kernel
  have hn : ∀ m ∈ ([] ++ moments .plain l (evening.take 3)) ++
      l₀.moment .plain watch :: moments .plain l₁ (evening.drop 3), m.registry.NumbersLeft := by
    decide +kernel
  have haccepted : ∀ m ∈ l₀.moment .plain watch :: moments .plain l₁ (evening.drop 3),
      m.AcceptedBy ⟨2⟩ := by
    decide +kernel
  have hstays : ∀ m ∈ moments .plain l₁ (evening.drop 3), ¬ m.event.Unwatches ⟨2⟩ := by
    decide +kernel
  have hrequest : Session.request? (.carrying .clientToServer .applicationMessage
      (Message.regObserverServerList ⟨true, 0, 0, 0, 9⟩).payload .wordSum) =
        some (.watchRooms ⟨true, 0, 0, 0, 9⟩) := by
    decide +kernel
  have hserved : (Handler.run (Session.carryOut .plain (.numbered 2)
      (.watchRooms ⟨true, 0, 0, 0, 9⟩)) ⟨l₀.registry, []⟩).1 = .ok () :=
    Session.served_watchRooms _ hin
  obtain ⟨-, hentries⟩ := board_shows_rooms hbefore hrequest hserved
    (passes_takeTurns .plain l₁ (evening.drop 3)) hn hstays haccepted
  obtain ⟨payload, echo, d, hget, -, hpayload⟩ := hentries room hroom
  exact ⟨room, d.ticketId, hseats, hpayload ▸ hget⟩

end Lobby

end GameLobby
