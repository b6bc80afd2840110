import GameLobby.Proofs.Lobby.Deliveries
import GameLobby.Proofs.Message.RoundTrip
import GameLobby.Proofs.Registry.Footprint

/-!
# Whom a turn reaches

A session makes calls for its own connection, and what it sends goes to its own client, to
subscribers or to users who are logged in (`Event.deeds_proper`). So a connection without an account
is not reached by the turns of others, and gets no account by them (`Event.stranger_turn`). All that
is offered in a turn are messages of the types that a lobby sends, which is what a client reads them
as (`Message.FromLobby.notice`).
-/

namespace GameLobby

open Registry

/-! ## What a lobby sends -/

/-- The types of the messages that a lobby sends. -/
def MessageType.fromLobby : List MessageType :=
  [.resultMessage, .motd, .userLoggedIn, .userLoggedOut, .resultId, .chat, .removeServer,
    .gameServerData]

/-- A message of a type that a lobby sends. -/
def Message.FromLobby : Message → Prop
  | .resultMessage _ | .motd _ | .userLoggedIn _ | .userLoggedOut _ | .resultId _ | .chat _
  | .removeServer _ | .gameServerData _ => True
  | _ => False

theorem Message.FromLobby.type_mem {m : Message} (h : m.FromLobby) :
    m.type ∈ MessageType.fromLobby := by
  cases m <;> first | exact h.elim | simp [Message.type, MessageType.fromLobby]

/-- A frame with a message from which a client can tell envelope, type and fields, and whose type is
one that a lobby sends. -/
structure OutboundFrame.IsNotice (f : OutboundFrame) : Prop where
  kind_eq : f.kind = .applicationMessage
  length_le : f.payload.length ≤ 1024
  read : ∃ code body t received, Payload.split f.payload = .ok (code, body) ∧
    Payload.typeOf code = .ok t ∧ Received.ofBody t body = .ok received ∧
    received.message.type = t ∧ t ∈ MessageType.fromLobby

theorem Message.FromLobby.notice {m : Message} (h : m.FromLobby) (hfits : m.fits) :
    m.frame.IsNotice where
  kind_eq := rfl
  length_le := of_decide_eq_true hfits
  read := ⟨m.type.code, m.body, m.type, ⟨m.type.code, m.trimmed⟩, Payload.split_payload m,
    Payload.typeOf_code m, Received.ofBody_body m (Message.short_of_fits hfits), m.type_trimmed,
    h.type_mem⟩

/-- What news says is of a type that a lobby sends. -/
theorem News.fromLobby (news : News) : news.message.FromLobby := by
  cases news <;> trivial

/-- Who is told news has an account. -/
theorem News.account_of_mem_recipients {news : News} {reg : Registry} {r : ConnectionId}
    (h : r ∈ news.recipients reg) : ∃ c a, reg.account? c = some a ∧ a.outbox = r := by
  obtain ⟨a, ha, rfl⟩ := List.mem_map.mp h
  obtain ⟨hmem, -⟩ := List.mem_filter.mp (mem_ascending.mp ha)
  obtain ⟨c, hc⟩ := Table.mem_values_iff.mp hmem
  exact ⟨c, a, hc, rfl⟩

theorem Message.mem_of_mem_offers {m : Message} {recipients : List ConnectionId} {o : Offer}
    (h : o ∈ m.offers recipients) : o.recipient ∈ recipients := by
  unfold Message.offers at h
  split at h
  · obtain ⟨r, hr, rfl⟩ := List.mem_map.mp h
    exact hr
  · cases h

/-! ## Proper deeds -/

namespace Deed

/-- A deed of a session, as all of them are: a call for the own connection, which edits no more of a
room than its listing, or messages of the types that a lobby sends, to the own client or to users
who are logged in. -/
def Proper (conn : ConnectionId) (reg : Registry) : Deed → Prop
  | .call k => k.conn = conn ∧ k.Housed ∧ k.Relists
  | .send c m => c = conn ∧ m.FromLobby
  | .tell _ => True
  | .exhibit recipients m =>
    (∀ r ∈ recipients, ∃ c a, reg.account? c = some a ∧ a.outbox = r) ∧ m.FromLobby

/-- A deed that says something to the own client or to subscribers. -/
def Says (conn : ConnectionId) : Deed → Prop
  | .send c m => c = conn ∧ m.FromLobby
  | .tell _ => True
  | _ => False

theorem each_of_said {conn : ConnectionId} {reg : Registry} {ds : List Deed}
    (h : ∀ d ∈ ds, d.Says conn) : Each (Proper conn) reg ds := by
  refine each_of_mem (fun d hd => ?_) fun d hd => ?_
  · cases d with
    | call k => exact (h _ hd).elim
    | send | tell | exhibit => rfl
  · cases d with
    | call k => exact (h _ hd).elim
    | send c m => exact h _ hd
    | tell news => trivial
    | exhibit recipients m => exact (h _ hd).elim

variable {conn c : ConnectionId} {reg : Registry} {d : Deed} {rules : Rules} {o : Offer}

theorem Proper.fromLobby (h : d.Proper conn reg) (ho : o ∈ d.offers rules reg) :
    o.message.FromLobby := by
  cases d with
  | call k => cases ho
  | send c m =>
    rw [List.mem_singleton.mp ho]
    exact h.2
  | tell news =>
    obtain ⟨m, hm, ho⟩ := List.mem_flatMap.mp ho
    rw [Message.message_eq_of_mem_offers ho]
    rcases List.mem_cons.mp hm with rfl | hm
    · exact news.fromLobby
    · obtain ⟨line, rfl⟩ := News.chat_of_mem_chatLine hm
      trivial
  | exhibit recipients m =>
    rw [Message.message_eq_of_mem_offers ho]
    exact h.2

/-- What is offered goes to the own client or to a user who is logged in. -/
theorem Proper.recipient (h : d.Proper conn reg) (ho : o ∈ d.offers rules reg) :
    o.recipient = conn ∨ ∃ c a, reg.account? c = some a ∧ a.outbox = o.recipient := by
  cases d with
  | call k => cases ho
  | send c m =>
    rw [List.mem_singleton.mp ho]
    exact .inl h.1
  | tell news =>
    obtain ⟨m, -, ho⟩ := List.mem_flatMap.mp ho
    exact .inr (News.account_of_mem_recipients (Message.mem_of_mem_offers ho))
  | exhibit recipients m => exact .inr (h.1 _ (Message.mem_of_mem_offers ho))

theorem Proper.housed_after (h : d.Proper conn reg) (hho : reg.Housed) : (d.after reg).Housed := by
  cases d with
  | call k => exact hho.apply h.2.1
  | send | tell | exhibit => exact hho

theorem Proper.account?_after (h : d.Proper conn reg) (hne : conn ≠ c)
    (hnone : reg.account? c = none) : (d.after reg).account? c = none := by
  cases d with
  | call k =>
    refine (account?_apply_of_none k hnone).resolve_right ?_
    rintro ⟨name, outbox, rfl, -⟩
    exact hne h.1.symm
  | send | tell | exhibit => exact hnone

/-! ### Proper deeds one after the other -/

variable {ds : List Deed}

theorem Each.fromLobby (h : Each (Proper conn) reg ds) (ho : o ∈ offersAll rules reg ds) :
    o.message.FromLobby := by
  induction ds generalizing reg with
  | nil => cases ho
  | cons d ds ih =>
    rcases List.mem_append.mp ho with ho | ho
    · exact h.1.fromLobby ho
    · exact ih h.2 ho

/-- Others do not reach a connection without an account. -/
theorem Each.recipient_ne (h : Each (Proper conn) reg ds) (hne : conn ≠ c) (hho : reg.Housed)
    (hnone : reg.account? c = none) (ho : o ∈ offersAll rules reg ds) : o.recipient ≠ c := by
  induction ds generalizing reg with
  | nil => cases ho
  | cons d ds ih =>
    rcases List.mem_append.mp ho with ho | ho
    · rintro rfl
      rcases h.1.recipient ho with hconn | ⟨c, a, ha, hbox⟩
      · exact hne hconn.symm
      · rw [← hbox, hho c a ha, ha] at hnone
        cases hnone
    · exact ih h.2 (h.1.housed_after hho) (h.1.account?_after hne hnone) ho

end Deed

/-! ## Requests -/

namespace Session

open Deed

variable {rules : Rules} {v : Visitor} {reg : Registry} {ds : List Deed}

theorem said_ok (ticketId : UInt32) : (Deed.ok v ticketId).Says v.conn :=
  ⟨rfl, trivial⟩

theorem seatGivenUp_proper (ticketId : UInt32) :
    Each (Proper v.conn) reg (seatGivenUp v reg ticketId) := by
  unfold seatGivenUp
  split
  · trivial
  · refine ⟨⟨rfl, trivial, trivial⟩, ?_⟩
    split
    · trivial
    · exact ⟨trivial, trivial⟩

theorem roomClosed_proper (notice : Room → RemoveServer) :
    Each (Proper v.conn) reg (roomClosed v reg notice) := by
  unfold roomClosed
  refine ⟨⟨rfl, trivial, trivial⟩, ?_⟩
  split
  · trivial
  · exact ⟨trivial, trivial⟩

theorem gameStarted_proper (room : Room) (ticketId : UInt32) :
    Each (Proper v.conn) reg (gameStarted v reg room ticketId) := by
  refine ⟨⟨rfl, trivial, Call.relists_editRoom ..⟩, ⟨fun r hr => ?_, trivial⟩, trivial⟩
  obtain ⟨a, ha, rfl⟩ := List.mem_map.mp hr
  obtain ⟨c, hc⟩ := Table.mem_values_iff.mp (mem_ascending.mp (List.mem_filter.mp ha).1)
  -- the edit of the room leaves the accounts as they are
  obtain ⟨j, hj⟩ :=
    (SameAccounts.updateRoom reg v.conn (.relist fun l => { l with running := true })).account?_eq c
  exact ⟨c, { a with joinedRoom := j },
    hj.trans (congrArg (Option.map _) (show reg.account? c = some a from hc)), rfl⟩

theorem plan_proper {r : Request} (h : plan rules v reg r = .ok ds) :
    Each (Proper v.conn) reg ds := by
  have hsubscribe : ∀ {topic on rest}, subscribePlan v reg topic on rest = .ok ds →
      (∀ reg, ∀ d ∈ rest reg, d.Says v.conn) → Each (Proper v.conn) reg ds := by
    intro topic on rest h hrest
    obtain ⟨a, -, rfl⟩ := subscribePlan_ok h
    exact ⟨⟨rfl, trivial, trivial⟩, each_of_said (hrest _)⟩
  have henter : ∀ {entry credentials patchlevel ticketId},
      enterPlan rules v reg entry credentials patchlevel ticketId = .ok ds →
      Each (Proper v.conn) reg ds := by
    intro entry credentials patchlevel ticketId h
    rcases enterPlan_ok h with rfl | ⟨-, rfl⟩
    · exact ⟨said_ok ticketId, trivial⟩
    · exact ⟨⟨rfl, rfl, trivial⟩, said_ok ticketId, trivial, trivial⟩
  have hone : ∀ ticketId, ∀ d ∈ [Deed.ok v ticketId], d.Says v.conn := fun ticketId =>
    List.forall_mem_singleton.mpr (said_ok ticketId)
  cases r with simp only [plan] at h
  | chat r =>
    split at h
    · cases h
    · cases h
      exact ⟨trivial, trivial⟩
  | motd r =>
    split at h
    · cases h
    · cases h
      exact ⟨⟨rfl, trivial⟩, trivial⟩
  | login r => exact henter h
  | newAccount r => exact henter h
  | watchChat r => exact hsubscribe h fun _ => hone r.ticketId
  | unwatchChat r => exact hsubscribe h fun _ => hone r.ticketId
  | watchLogins r =>
    refine hsubscribe h fun reg => List.forall_mem_cons.mpr ⟨said_ok _, fun d hd => ?_⟩
    obtain ⟨a, -, rfl⟩ := List.mem_map.mp hd
    exact ⟨rfl, trivial⟩
  | unwatchLogins r => exact hsubscribe h fun _ => hone r.ticketId
  | watchRooms r =>
    refine hsubscribe h fun reg =>
      List.forall_mem_append.mpr ⟨fun d hd => ?_, hone r.ticketId⟩
    obtain ⟨room, -, rfl⟩ := List.mem_map.mp hd
    exact ⟨rfl, trivial⟩
  | unwatchRooms r => exact hsubscribe h fun _ => hone r.ticketId
  | openRoom r =>
    obtain ⟨a, -, -, rfl⟩ := openRoomPlan_ok h
    rw [each_append, each_append, afterAll_roomClosed]
    exact ⟨⟨roomClosed_proper _, seatGivenUp_proper _⟩, ⟨rfl, trivial, trivial⟩,
      ⟨rfl, trivial⟩, trivial, trivial⟩
  | closeRoom r =>
    obtain ⟨room, -, -, rfl⟩ := closeRoomPlan_ok h
    rw [each_append]
    refine ⟨?_, ⟨rfl, trivial, trivial⟩, trivial, said_ok _, trivial⟩
    split
    · exact gameStarted_proper room r.ticketId
    · trivial
  | changeRoom r =>
    obtain ⟨room, -, -, -, rfl⟩ := changeRoomPlan_ok h
    exact ⟨⟨rfl, trivial, Call.relists_editRoom ..⟩, trivial, said_ok _, trivial⟩
  | joinRoom r =>
    obtain ⟨a, change, -, -, rfl⟩ := joinRoomPlan_ok h
    refine ⟨⟨rfl, trivial, trivial⟩, each_of_said (List.forall_mem_append.mpr ⟨fun d hd => ?_,
      List.forall_mem_cons.mpr ⟨said_ok _, List.forall_mem_singleton.mpr trivial⟩⟩)⟩
    obtain ⟨room, -, rfl⟩ := List.mem_map.mp hd
    trivial
  | leaveRoom r =>
    obtain ⟨id, room, -, rfl⟩ := leaveRoomPlan_ok h
    exact ⟨⟨rfl, trivial, trivial⟩, said_ok _, trivial, trivial⟩

end Session

/-! ## Turns -/

namespace Event

variable (rules : Rules) (e : Event) {reg : Registry}

theorem deeds_proper (reg : Registry) :
    Deed.Each (Deed.Proper e.conn) reg (e.deeds rules reg) := by
  cases e with
  | frame v f =>
    show Deed.Each _ reg (Session.frameDeeds rules v reg f)
    rcases Session.frameDeeds_cases rules v reg f with heq | ⟨r, ds, -, hplan, heq⟩ | ⟨answer, heq⟩
    · rw [heq]
      trivial
    · rw [heq]
      exact Session.plan_proper hplan
    · rw [heq]
      exact ⟨⟨rfl, trivial⟩, trivial⟩
  | departure conn =>
    show Deed.Each _ reg (Session.departureDeeds reg conn)
    unfold Session.departureDeeds
    split
    · trivial
    · refine ⟨⟨rfl, trivial, trivial⟩, Deed.each_of_said fun d hd => ?_⟩
      obtain ⟨news, -, rfl⟩ := List.mem_map.mp hd
      trivial

theorem offers_turn (reg : Registry) :
    (e.turn rules ⟨reg, []⟩).offers = Deed.offersAll rules reg (e.deeds rules reg) := by
  rw [turn_eq_performAll, Deed.performAll_eq, List.nil_append]

/-- All that is offered in a turn is of the types that a lobby sends. -/
theorem fromLobby_of_mem {o : Offer} (ho : o ∈ (e.turn rules ⟨reg, []⟩).offers) :
    o.message.FromLobby :=
  (e.deeds_proper rules reg).fromLobby (offers_turn rules e reg ▸ ho)

theorem housed_of_turn (hho : reg.Housed) : (e.turn rules ⟨reg, []⟩).registry.Housed := by
  rw [registry_turn]
  exact (e.deeds_proper rules reg).preserves hho fun _ _ => Deed.Proper.housed_after

/-- **Strangers.** The turns of others offer nothing to a connection that has no account, and leave
it without one. -/
theorem stranger_turn {c : ConnectionId} (hne : e.conn ≠ c) (hho : reg.Housed)
    (hnone : reg.account? c = none) :
    (∀ o ∈ (e.turn rules ⟨reg, []⟩).offers, o.recipient ≠ c) ∧
      (e.turn rules ⟨reg, []⟩).registry.account? c = none := by
  have hproper := e.deeds_proper rules reg
  constructor
  · intro o ho
    exact hproper.recipient_ne hne hho hnone (offers_turn rules e reg ▸ ho)
  · rw [registry_turn]
    exact hproper.preserves hnone fun _ _ hd => hd.account?_after hne

end Event

/-- Everybody's news goes to the own outbox. -/
theorem Lobby.Passes.housed {rules : Rules} {l : Lobby} {ms : List Moment}
    (h : Passes rules opened ms l) : l.registry.Housed :=
  h.preserves (fun _ _ => trivial) nofun fun _ _ e (_ : True) hho => e.housed_of_turn _ hho

end GameLobby
