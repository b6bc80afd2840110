import GameLobby.Proofs.Registry.Settings
import GameLobby.Proofs.Session.Conduct

/-!
# Every room can be shown

A room is looked at before it is offered or changed: what it would show with no number yet, with one
player and not running has to fit a frame. That is enough for as long as the room stays, because
only its settings count for the size. So what is shown in a turn fits (`deeds_show`), no message
about a room is dropped for its size, and `room_always_shown` says so of every state of a lobby.
-/

namespace GameLobby

open Registry Wire

/-- What a deed shows of rooms fits a frame, and so do the settings that it brings in. -/
def Deed.Shows (_ : Registry) : Deed → Prop
  | .call c => c.Fits
  | .tell (.roomUpdated d) => (Message.gameServerData d).fits
  | .send _ (.gameServerData d) => (Message.gameServerData d).fits
  | .exhibit _ (.gameServerData d) => (Message.gameServerData d).fits
  | _ => True

namespace Deed

theorem Shows.allFit {reg : Registry} {d : Deed} (h : d.Shows reg) (hfit : reg.AllFit) :
    (d.after reg).AllFit := by
  cases d with
  | call c => exact hfit.apply h
  | send | tell | exhibit => exact hfit

theorem shows_tellRoom (reg : Registry) {room : Room} (h : room.settings.Fits)
    (ticketId : UInt32) : (tellRoom ticketId room).Shows reg :=
  (room.fits_snapshot_iff ticketId).mpr h

end Deed

namespace Session

open Deed

variable {rules : Rules} {v : Visitor} {reg : Registry} {ds : List Deed}

theorem changeRoomPlan_shows {r : ChangeGameServer} (h : changeRoomPlan v reg r = .ok ds) :
    Each Shows reg ds := by
  obtain ⟨room, -, -, hchanged, rfl⟩ := changeRoomPlan_ok h
  have hsettings : (changedSettings room.settings r).Fits :=
    (RoomSettings.fits_snapshot_iff ..).mp hchanged
  exact ⟨fun _ _ => hsettings, shows_tellRoom _ hsettings r.ticketId, trivial, trivial⟩

variable (hfit : reg.AllFit)

include hfit

theorem seatGivenUp_shows (ticketId : UInt32) : Each Shows reg (seatGivenUp v reg ticketId) := by
  unfold seatGivenUp
  split
  · trivial
  refine ⟨trivial, ?_⟩
  split
  · trivial
  · rename_i room hroom
    exact ⟨shows_tellRoom _ (hfit.leaveSeat_answer hroom) ticketId, trivial⟩

theorem openRoomPlan_shows {r : AddGameServer} (h : openRoomPlan rules v reg r = .ok ds) :
    Each Shows reg ds := by
  obtain ⟨a, -, hoffered, rfl⟩ := openRoomPlan_ok h
  have hsettings : (offeredSettings rules v r).Fits :=
    (RoomSettings.fits_snapshot_iff ..).mp hoffered
  rw [each_append, each_append, afterAll_append, afterAll_roomClosed]
  refine ⟨⟨⟨trivial, ?_⟩, seatGivenUp_shows (hfit.closeRoom v.conn) r.ticketId⟩, hsettings, trivial,
    shows_tellRoom _ hsettings r.ticketId, trivial⟩
  split
  · trivial
  · exact ⟨trivial, trivial⟩

theorem closeRoomPlan_shows {r : RemoveServer} (h : closeRoomPlan v reg r = .ok ds) :
    Each Shows reg ds := by
  obtain ⟨room, hroom, -, rfl⟩ := closeRoomPlan_ok h
  have hshown : Each Shows reg (gameStarted v reg room r.ticketId) :=
    ⟨fun l hl => hl, (Room.fits_snapshot_iff _ r.ticketId).mpr (hfit v.conn room hroom), trivial⟩
  rw [each_append]
  refine ⟨?_, trivial, trivial, trivial, trivial⟩
  split
  · exact hshown
  · trivial

theorem joinRoomPlan_shows {r : JoinServer} (h : joinRoomPlan v reg r = .ok ds) :
    Each Shows reg ds := by
  obtain ⟨a, change, -, hchange, rfl⟩ := joinRoomPlan_ok h
  obtain ⟨hentered, hleft⟩ := hfit.changeSeat_answer hchange
  rw [List.cons_append, each_cons, each_append]
  refine ⟨trivial, ?_, trivial, shows_tellRoom _ hentered r.ticketId, trivial⟩
  cases hroom : change.left with
  | none => trivial
  | some room => exact ⟨shows_tellRoom _ (hleft room hroom) r.ticketId, trivial⟩

theorem leaveRoomPlan_shows {r : LeaveServer} (h : leaveRoomPlan v reg r = .ok ds) :
    Each Shows reg ds := by
  obtain ⟨id, room, hroom, rfl⟩ := leaveRoomPlan_ok h
  exact ⟨trivial, trivial, shows_tellRoom _ (hfit.leaveSeat_answer hroom) r.ticketId, trivial⟩

theorem plan_shows {r : Request} (h : plan rules v reg r = .ok ds) : Each Shows reg ds := by
  have henter : ∀ {entry credentials patchlevel ticketId},
      enterPlan rules v reg entry credentials patchlevel ticketId = .ok ds → Each Shows reg ds := by
    intro entry credentials patchlevel ticketId h
    rcases enterPlan_ok h with rfl | ⟨-, rfl⟩
    · exact ⟨trivial, trivial⟩
    · exact ⟨trivial, trivial, trivial, trivial⟩
  have hsubscribe : ∀ {topic on ticketId},
      subscribePlan v reg topic on (fun _ => [.ok v ticketId]) = .ok ds → Each Shows reg ds := by
    intro topic on ticketId h
    obtain ⟨a, -, rfl⟩ := subscribePlan_ok h
    exact ⟨trivial, trivial, trivial⟩
  cases r with simp only [plan] at h
  | chat r =>
    split at h
    · cases h
    · cases h
      exact ⟨trivial, trivial⟩
  | motd r =>
    split at h
    · cases h
    · cases h
      exact ⟨trivial, trivial⟩
  | login r => exact henter h
  | newAccount r => exact henter h
  | watchChat r => exact hsubscribe h
  | unwatchChat r => exact hsubscribe h
  | unwatchLogins r => exact hsubscribe h
  | unwatchRooms r => exact hsubscribe h
  | watchLogins r =>
    obtain ⟨a, -, rfl⟩ := subscribePlan_ok h
    refine ⟨trivial, trivial, each_of_mem (fun d hd => ?_) fun d hd => ?_⟩
    · obtain ⟨b, -, rfl⟩ := List.mem_map.mp hd
      rfl
    · obtain ⟨b, -, rfl⟩ := List.mem_map.mp hd
      trivial
  | watchRooms r =>
    obtain ⟨a, -, rfl⟩ := subscribePlan_ok h
    have hrooms : (reg.setSubscription v.conn .rooms true).2.AllFit :=
      hfit.apply (show (Call.setSubscription v.conn .rooms true).Fits from trivial)
    refine ⟨trivial, ?_⟩
    rw [each_append]
    refine ⟨each_of_mem (fun d hd => ?_) fun d hd => ?_, trivial, trivial⟩
    · obtain ⟨room, -, rfl⟩ := List.mem_map.mp hd
      rfl
    · obtain ⟨room, hroom, rfl⟩ := List.mem_map.mp hd
      exact (room.fits_snapshot_iff r.ticketId).mpr (hrooms.mem_values (mem_ascending.mp hroom))
  | openRoom r => exact openRoomPlan_shows hfit h
  | closeRoom r => exact closeRoomPlan_shows hfit h
  | changeRoom r => exact changeRoomPlan_shows h
  | joinRoom r => exact joinRoomPlan_shows hfit h
  | leaveRoom r => exact leaveRoomPlan_shows hfit h

end Session

/-- What is shown in a turn fits. -/
theorem Event.deeds_show (rules : Rules) (e : Event) {reg : Registry} (hfit : reg.AllFit) :
    Deed.Each Deed.Shows reg (e.deeds rules reg) := by
  cases e with
  | frame v f =>
    show Deed.Each _ reg (Session.frameDeeds rules v reg f)
    rcases Session.frameDeeds_cases rules v reg f with heq | ⟨r, ds, -, hplan, heq⟩ | ⟨answer, heq⟩
    · rw [heq]
      trivial
    · rw [heq]
      exact Session.plan_shows hfit hplan
    · rw [heq]
      exact ⟨trivial, trivial⟩
  | departure conn =>
    show Deed.Each _ reg (Session.departureDeeds reg conn)
    unfold Session.departureDeeds
    split
    · trivial
    rename_i d hd
    refine ⟨trivial, Deed.each_of_mem (fun d hd => ?_) fun deed hdeed => ?_⟩
    · obtain ⟨news, -, rfl⟩ := List.mem_map.mp hd
      rfl
    · obtain ⟨news, hnews, rfl⟩ := List.mem_map.mp hdeed
      unfold Session.farewell at hnews
      simp only [List.mem_append, Option.mem_toList, Option.map_eq_some_iff, List.mem_singleton]
        at hnews
      rcases hnews with (⟨room, -, rfl⟩ | ⟨room, hroom, rfl⟩) | rfl
      · trivial
      · exact (room.fits_snapshot_iff 0).mpr (hfit.logOut_answer hd hroom)
      · trivial

theorem Event.allFit_turn (rules : Rules) (e : Event) {reg : Registry} (hfit : reg.AllFit) :
    (e.turn rules ⟨reg, []⟩).registry.AllFit := by
  rw [Event.registry_turn]
  exact (e.deeds_show rules hfit).preserves hfit fun _ _ => Deed.Shows.allFit

/-! ## No message about a room is dropped -/

/-- What a deed shows of rooms is offered to everybody whom it is for, and no outbox refuses it for
its size. -/
def Deed.Unabridged (rules : Rules) (reg : Registry) : Deed → Prop
  | .tell (.roomUpdated d) =>
    (News.roomUpdated d).offers rules.config.announceLogins reg =
      ((News.roomUpdated d).recipients reg).map (⟨·, .gameServerData d⟩) ∧
    (Message.gameServerData d).NeverTooLarge
  | .send _ (.gameServerData d) => (Message.gameServerData d).NeverTooLarge
  | .exhibit recipients (.gameServerData d) =>
    (Message.gameServerData d).offers recipients = recipients.map (⟨·, .gameServerData d⟩) ∧
    (Message.gameServerData d).NeverTooLarge
  | _ => True

theorem Message.offers_of_fits {m : Message} (h : m.fits) (recipients : List ConnectionId) :
    m.offers recipients = recipients.map (⟨·, m⟩) :=
  if_pos h

theorem Deed.Shows.unabridged (rules : Rules) {reg : Registry} {d : Deed} (h : d.Shows reg) :
    d.Unabridged rules reg := by
  cases d with
  | call c => trivial
  | send conn m =>
    cases m with
    | gameServerData d => exact Message.neverTooLarge h
    | _ => trivial
  | tell news =>
    cases news with
    | roomUpdated d =>
      refine ⟨?_, Message.neverTooLarge h⟩
      unfold News.offers
      rw [show (News.roomUpdated d).chatLine rules.config.announceLogins = [] from rfl,
        List.flatMap_singleton]
      exact Message.offers_of_fits h _
    | _ => trivial
  | exhibit recipients m =>
    cases m with
    | gameServerData d => exact ⟨Message.offers_of_fits h _, Message.neverTooLarge h⟩
    | _ => trivial

namespace Lobby

theorem Passes.allFit {rules : Rules} {l : Lobby} {ms : List Moment}
    (h : Passes rules opened ms l) : l.registry.AllFit :=
  h.preserves (fun _ _ => trivial) allFit_empty fun _ _ e (_ : True) hfit => e.allFit_turn _ hfit

/-- **Advertising.** In whatever state a lobby is, what any of its rooms shows can be written and
fits a frame, with any number of players, running or not and under any room number. A turn is its
deeds, and no deed that shows a room is cut short for its size. -/
theorem room_always_shown {rules : Rules} {l : Lobby} {ms : List Moment}
    (h : Passes rules opened ms l) :
    (∀ r ∈ l.registry.rooms.values, ∀ id players running ticketId,
      let m := Message.gameServerData (({ r with id, players, running } : Room).snapshot ticketId)
      ∃ body, Schema.encode m.type.schema m.values = .ok body ∧
        m.payload = Bytes.ofUInt16 Payload.magic ++ Bytes.ofUInt16 m.type.code ++ body ∧
        m.payload.length ≤ 1024) ∧
    ∀ e : Event,
      e.turn rules ⟨l.registry, []⟩ =
          Deed.performAll rules (e.deeds rules l.registry) ⟨l.registry, []⟩ ∧
        Deed.Each (Deed.Unabridged rules) l.registry (e.deeds rules l.registry) := by
  have hfit := h.allFit
  refine ⟨fun r hr id players running ticketId => ?_, fun e => ⟨e.turn_eq_performAll rules _, ?_⟩⟩
  · let room : Room := { r with id, players, running }
    have hsettings : r.settings.Fits := hfit.mem_values hr
    have hroom : (Message.gameServerData (room.snapshot ticketId)).fits :=
      (room.fits_snapshot_iff ticketId).mpr hsettings
    refine ⟨(Message.gameServerData (room.snapshot ticketId)).body, ?_, rfl,
      of_decide_eq_true hroom⟩
    exact @Record.encode_values MessageType.gameServerData.schema
      (MessageType.gameServerData.code, (Message.gameServerData (room.snapshot ticketId)).record)
  · exact (e.deeds_show rules hfit).imp fun _ _ hd => hd.unabridged rules

/-- The room in which two users sit can be shown. -/
theorem evening_room_shown :
    ∃ r ∈ (takeTurns .plain opened evening).registry.rooms.values, ∀ ticketId,
      (Message.gameServerData (r.snapshot ticketId)).payload.length ≤ 1024 := by
  have hsome : (takeTurns .plain opened evening).registry.rooms.values ≠ [] := by decide +kernel
  obtain ⟨r, hr⟩ := List.exists_mem_of_ne_nil _ hsome
  obtain ⟨hrooms, -⟩ := room_always_shown (passes_takeTurns .plain opened evening)
  refine ⟨r, hr, fun ticketId => ?_⟩
  obtain ⟨_, -, -, hle⟩ := hrooms r hr r.id r.players r.running ticketId
  exact hle

end Lobby

end GameLobby
