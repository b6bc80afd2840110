import GameLobby.Proofs.Lobby.Roster
import GameLobby.Proofs.Message.Reading
import GameLobby.Proofs.Session.Plan

/-!
# Turns that say nothing of users

Most of what is done in a turn does nothing to users, tells a watcher of logins nothing of them, and
leaves it watching (`Deed.Discreet`). The exceptions are few: a login, a departure, and what the
watcher itself asks for about its watching (`Event.deeds_cases`).
-/

namespace GameLobby

open Registry

/-! ## Deeds that say nothing of users -/

/-- A call that does nothing to users and leaves connection `c` watching logins or not watching. -/
def Registry.Call.Discreet (c : ConnectionId) : Call → Prop
  | .logIn .. | .logOut _ => False
  | .setSubscription conn .logins _ => conn ≠ c
  | _ => True

theorem Registry.Call.Discreet.sparesUsers {c : ConnectionId} {call : Call}
    (h : call.Discreet c) : call.SparesUsers := by
  cases call with
  | logIn | logOut => exact h
  | setSubscription | openRoom | closeRoom | updateRoom | takeSeat | changeSeat | leaveSeat =>
    trivial

namespace Deed

/-- A deed does nothing to users and tells connection `c` nothing of any. -/
def Discreet (c : ConnectionId) : Deed → Prop
  | .call k => k.Discreet c
  | .send conn m => conn = c → ∀ u, m.tells? u = none
  | .tell news => ∀ u, news.message.tells? u = none
  | .exhibit _ m => ∀ u, m.tells? u = none

variable {c : ConnectionId} {d : Deed} {reg : Registry}

theorem Discreet.silent (h : d.Discreet c) {rules : Rules} {o : Offer}
    (ho : o ∈ d.offers rules reg) (hc : o.recipient = c) (u : UserId) :
    o.message.tells? u = none := by
  cases d with
  | call k => cases ho
  | send conn m =>
    rw [List.mem_singleton.mp ho] at hc ⊢
    exact h hc u
  | tell news =>
    obtain ⟨m, hm, ho⟩ := List.mem_flatMap.mp ho
    rw [Message.message_eq_of_mem_offers ho]
    rcases List.mem_cons.mp hm with rfl | hm
    · exact h u
    · obtain ⟨line, rfl⟩ := News.chat_of_mem_chatLine hm
      rfl
  | exhibit recipients m =>
    rw [Message.message_eq_of_mem_offers ho]
    exact h u

theorem Discreet.sameUsers_after (h : d.Discreet c) (reg : Registry) :
    reg.SameUsers (d.after reg) := by
  cases d with
  | call k => exact (Call.Discreet.sparesUsers h).sameUsers reg
  | send | tell | exhibit => exact .refl reg

theorem Discreet.housed_after (h : d.Discreet c) (hho : reg.Housed) : (d.after reg).Housed := by
  cases d with
  | call k =>
    refine hho.apply ?_
    cases k with
    | logIn => exact h.elim
    | logOut | setSubscription | openRoom | closeRoom | updateRoom | takeSeat | changeSeat
      | leaveSeat => trivial
  | send | tell | exhibit => exact hho

theorem Discreet.subscribes_after (h : d.Discreet c) (hsub : reg.subscribes .logins c) :
    (d.after reg).subscribes .logins c := by
  cases d with
  | call k =>
    refine subscribes_apply ?_ ?_ hsub
    · rintro rfl
      exact h
    · rintro rfl
      exact h rfl
  | send | tell | exhibit => exact hsub

/-- Discreet deeds leave a registry with the same users, and the outboxes and the watching of
connection `c` as they were. -/
theorem afterAll_discreet {ds : List Deed} (h : ∀ d ∈ ds, d.Discreet c) (reg : Registry) :
    reg.SameUsers (afterAll reg ds) ∧ (reg.Housed → (afterAll reg ds).Housed) ∧
      (reg.subscribes .logins c → (afterAll reg ds).subscribes .logins c) := by
  induction ds generalizing reg with
  | nil => exact ⟨.refl reg, id, id⟩
  | cons d ds ih =>
    obtain ⟨hd, hds⟩ := List.forall_mem_cons.mp h
    obtain ⟨hsame, hhoused, hsub⟩ := ih hds (d.after reg)
    exact ⟨(hd.sameUsers_after reg).trans hsame, fun hho => hhoused (hd.housed_after hho),
      fun hs => hsub (hd.subscribes_after hs)⟩

/-- Discreet deeds tell a connection nothing of users. -/
theorem told_offersAll_discreet (rules : Rules) {ds : List Deed} (h : ∀ d ∈ ds, d.Discreet c)
    (reg : Registry) (u : UserId) : Offer.told c u (offersAll rules reg ds) = [] := by
  induction ds generalizing reg with
  | nil => rfl
  | cons d ds ih =>
    obtain ⟨hd, hds⟩ := List.forall_mem_cons.mp h
    have hrest := ih hds (d.after reg)
    show Offer.told c u (d.offers rules reg ++ offersAll rules (d.after reg) ds) = []
    rw [Offer.told_append, Offer.told_of_silent fun o ho hc => hd.silent ho hc u, hrest]
    rfl

end Deed

/-! ## Requests -/

/-- A request for news of logins from the start, or for no more of it. -/
def Request.revisesLogins : Request → Bool
  | .watchLogins _ | .unwatchLogins _ => true
  | _ => false

/-- A client wants news of logins from the start or no more of it, or its session ended. -/
def Event.RevisesLogins (c : ConnectionId) : Event → Prop
  | .frame v f => v.conn = c ∧ (Session.request? f).any (·.revisesLogins)
  | .departure conn => conn = c

instance (c : ConnectionId) (e : Event) : Decidable (e.RevisesLogins c) :=
  match e with
  | .frame .. => inferInstanceAs (Decidable (_ ∧ _))
  | .departure conn => inferInstanceAs (Decidable (conn = c))

namespace Session

open Deed

variable {rules : Rules} {v : Visitor} {reg : Registry} {ds : List Deed} {c : ConnectionId}

/-- A request comes in a payload. -/
theorem received_of_request? {f : Frame} {r : Request} (h : request? f = some r) :
    ∃ received, Received.ofPayload f.payload = .ok received ∧
      received.message.request? = some r := by
  unfold request? at h
  split at h
  · split at h
    · exact ⟨_, ‹_›, h⟩
    · cases h
  · cases h

/-- Whoever asks to be let in by a frame has a name that can be told in one. -/
theorem fits_userLoggedIn {f : Frame} {r : Request} {nickname : RawText}
    (hle : f.payload.length ≤ FrameHeader.maxPayload) (hr : request? f = some r)
    (hname : r.nickname? = some nickname) (number : UInt32) :
    (Message.userLoggedIn ⟨number, nickname⟩).fits := by
  obtain ⟨received, hreceived, hr⟩ := received_of_request? hr
  exact Received.fits_userLoggedIn hreceived hle hr hname number

theorem discreet_ok (ticketId : UInt32) : (Deed.ok v ticketId).Discreet c := fun _ _ => rfl

theorem discreet_tellRoom (ticketId : UInt32) (room : Room) :
    (tellRoom ticketId room).Discreet c := fun _ => rfl

theorem roomClosed_discreet (notice : Room → RemoveServer) :
    ∀ d ∈ roomClosed v reg notice, d.Discreet c := by
  unfold roomClosed
  refine List.forall_mem_cons.mpr ⟨trivial, ?_⟩
  split
  · exact List.forall_mem_nil _
  · exact List.forall_mem_singleton.mpr fun _ => rfl

theorem seatGivenUp_discreet (ticketId : UInt32) :
    ∀ d ∈ seatGivenUp v reg ticketId, d.Discreet c := by
  unfold seatGivenUp
  split
  · exact List.forall_mem_nil _
  · refine List.forall_mem_cons.mpr ⟨trivial, ?_⟩
    split
    · exact List.forall_mem_nil _
    · exact List.forall_mem_singleton.mpr (discreet_tellRoom _ _)

theorem roomOffered_discreet (room : Room) (ticketId : UInt32) :
    ∀ d ∈ roomOffered v room ticketId, d.Discreet c :=
  List.forall_mem_cons.mpr ⟨trivial, List.forall_mem_cons.mpr ⟨fun _ _ => rfl,
    List.forall_mem_singleton.mpr (discreet_tellRoom _ _)⟩⟩

theorem gameStarted_discreet (room : Room) (ticketId : UInt32) :
    ∀ d ∈ gameStarted v reg room ticketId, d.Discreet c :=
  List.forall_mem_cons.mpr ⟨trivial, List.forall_mem_singleton.mpr fun _ => rfl⟩

/-- What is done when a user is let in. -/
def letIn (v : Visitor) (reg : Registry) (nickname : RawText) (ticketId : UInt32) :
    List Deed :=
  [.call (.logIn v.conn nickname v.conn), .ok v ticketId,
    .tell (.loggedIn ⟨reg.lastUid + 1⟩ nickname)]

/-- A request lets its sender in, or else it says nothing of users and does nothing to them, unless
a watcher of logins sends it to watch from the start or no more. -/
theorem plan_discreet {r : Request} (h : plan rules v reg r = .ok ds)
    (hr : v.conn = c → ¬ r.revisesLogins) :
    (∀ d ∈ ds, d.Discreet c) ∨
      ∃ nickname ticketId, r.nickname? = some nickname ∧ reg.account? v.conn = none ∧
        ds = letIn v reg nickname ticketId := by
  have hsubscribe : ∀ {topic on ticketId}, topic ≠ .logins →
      subscribePlan v reg topic on (fun _ => [.ok v ticketId]) = .ok ds →
      ∀ d ∈ ds, d.Discreet c := by
    intro topic on ticketId htopic h
    obtain ⟨a, -, rfl⟩ := subscribePlan_ok h
    refine List.forall_mem_cons.mpr ⟨?_, List.forall_mem_singleton.mpr (discreet_ok _)⟩
    cases topic with
    | logins => exact absurd rfl htopic
    | chat | rooms => trivial
  cases r with simp only [plan] at h
  | login r =>
    rcases enterPlan_ok h with rfl | ⟨hnone, rfl⟩
    · exact .inl (List.forall_mem_singleton.mpr (discreet_ok _))
    · exact .inr ⟨_, _, rfl, hnone, rfl⟩
  | newAccount r =>
    rcases enterPlan_ok h with rfl | ⟨hnone, rfl⟩
    · exact .inl (List.forall_mem_singleton.mpr (discreet_ok _))
    · exact .inr ⟨_, _, rfl, hnone, rfl⟩
  | chat r =>
    left
    split at h
    · cases h
    · cases h
      exact List.forall_mem_singleton.mpr fun _ => rfl
  | motd r =>
    left
    split at h
    · cases h
    · cases h
      exact List.forall_mem_singleton.mpr fun _ _ => rfl
  | watchChat r => exact .inl (hsubscribe (by simp) h)
  | unwatchChat r => exact .inl (hsubscribe (by simp) h)
  | unwatchRooms r => exact .inl (hsubscribe (by simp) h)
  | watchLogins r =>
    left
    have hc : v.conn ≠ c := fun hc => hr hc rfl
    obtain ⟨a, -, rfl⟩ := subscribePlan_ok h
    refine List.forall_mem_cons.mpr ⟨hc, List.forall_mem_cons.mpr ⟨discreet_ok _, fun d hd => ?_⟩⟩
    obtain ⟨b, -, rfl⟩ := List.mem_map.mp hd
    exact fun heq => absurd heq hc
  | unwatchLogins r =>
    left
    have hc : v.conn ≠ c := fun hc => hr hc rfl
    obtain ⟨a, -, rfl⟩ := subscribePlan_ok h
    exact List.forall_mem_cons.mpr ⟨hc, List.forall_mem_singleton.mpr (discreet_ok _)⟩
  | watchRooms r =>
    left
    obtain ⟨a, -, rfl⟩ := subscribePlan_ok h
    refine List.forall_mem_cons.mpr ⟨trivial, List.forall_mem_append.mpr
      ⟨fun d hd => ?_, List.forall_mem_singleton.mpr (discreet_ok _)⟩⟩
    obtain ⟨room, -, rfl⟩ := List.mem_map.mp hd
    exact fun _ _ => rfl
  | openRoom r =>
    left
    obtain ⟨a, -, -, rfl⟩ := openRoomPlan_ok h
    exact List.forall_mem_append.mpr ⟨List.forall_mem_append.mpr
      ⟨roomClosed_discreet _, seatGivenUp_discreet _⟩, roomOffered_discreet _ _⟩
  | closeRoom r =>
    left
    obtain ⟨room, -, -, rfl⟩ := closeRoomPlan_ok h
    refine List.forall_mem_append.mpr ⟨?_, List.forall_mem_cons.mpr ⟨trivial,
      List.forall_mem_cons.mpr ⟨fun _ => rfl, List.forall_mem_singleton.mpr (discreet_ok _)⟩⟩⟩
    split
    · exact gameStarted_discreet _ _
    · exact List.forall_mem_nil _
  | changeRoom r =>
    left
    obtain ⟨room, -, -, -, rfl⟩ := changeRoomPlan_ok h
    exact List.forall_mem_cons.mpr ⟨trivial, List.forall_mem_cons.mpr
      ⟨discreet_tellRoom _ _, List.forall_mem_singleton.mpr (discreet_ok _)⟩⟩
  | joinRoom r =>
    left
    obtain ⟨a, change, -, -, rfl⟩ := joinRoomPlan_ok h
    refine List.forall_mem_append.mpr ⟨List.forall_mem_cons.mpr ⟨trivial, fun d hd => ?_⟩,
      List.forall_mem_cons.mpr ⟨discreet_ok _,
        List.forall_mem_singleton.mpr (discreet_tellRoom _ _)⟩⟩
    obtain ⟨room, -, rfl⟩ := List.mem_map.mp hd
    exact discreet_tellRoom _ _
  | leaveRoom r =>
    left
    obtain ⟨id, room, -, rfl⟩ := leaveRoomPlan_ok h
    exact List.forall_mem_cons.mpr ⟨trivial, List.forall_mem_cons.mpr
      ⟨discreet_ok _, List.forall_mem_singleton.mpr (discreet_tellRoom _ _)⟩⟩

end Session

/-! ## Turns -/

/-- **Exceptions.** In a turn a user is let in or departs, or else nothing is done to users and
nothing is said of them, unless it is the own turn of a watcher of logins to watch from the start or
no more. -/
theorem Event.deeds_cases (rules : Rules) (reg : Registry) {e : Event} {c : ConnectionId}
    (hstays : ¬ e.RevisesLogins c) :
    (∀ d ∈ e.deeds rules reg, d.Discreet c) ∨
      (∃ v nickname ticketId, reg.account? v.conn = none ∧
        (e.Readable → (Message.userLoggedIn ⟨reg.lastUid + 1, nickname⟩).fits) ∧
        e.deeds rules reg = Session.letIn v reg nickname ticketId) ∨
      ∃ conn, conn ≠ c ∧ e = .departure conn := by
  cases e with
  | departure conn => exact .inr (.inr ⟨conn, hstays, rfl⟩)
  | frame v f =>
    show (∀ d ∈ Session.frameDeeds rules v reg f, d.Discreet c) ∨ _
    rcases Session.frameDeeds_cases rules v reg f with heq | ⟨r, ds, hr, hplan, heq⟩ | ⟨answer, heq⟩
    · exact .inl (heq ▸ List.forall_mem_nil _)
    · have hrevises : v.conn = c → ¬ r.revisesLogins := fun hc hrevises =>
        hstays ⟨hc, by rw [hr]; exact hrevises⟩
      rcases Session.plan_discreet hplan hrevises with hds | ⟨nickname, ticketId, hname, hnone, rfl⟩
      · exact .inl (heq ▸ hds)
      · exact .inr (.inl ⟨v, nickname, ticketId, hnone, fun hread =>
          Session.fits_userLoggedIn (Frame.Sound.length_payload_le hread) hr hname _, heq⟩)
    · exact .inl (heq ▸ List.forall_mem_singleton.mpr fun _ _ => rfl)

end GameLobby
