import GameLobby.Proofs.Lobby.History
import GameLobby.Proofs.Registry.Footprint
import GameLobby.Proofs.Registry.Seats

/-!
# How sessions make calls

A session makes calls on behalf of its own connection and of no other, offers rooms under its own
user number and takes seats only while it is logged in (`deeds_own`). So each turn keeps a registry
coherent (`coherent_turn`), and so does every history, while there are numbers left. News of a user
goes to the user's own outbox.
-/

namespace GameLobby

open Registry

namespace Registry

/-! ## Numbers in use -/

section Numbers

variable {reg : Registry} (h : reg.NumbersLeft)

include h

theorem NumbersLeft.closeRoom (conn : ConnectionId) : (reg.closeRoom conn).2.NumbersLeft := by
  rcases closeRoom_cases reg conn with ⟨_, heq⟩ | ⟨_, _, heq⟩
  · rw [heq]
    exact h
  · rw [heq]
    exact h

theorem NumbersLeft.leaveSeat (id : RoomId) (conn : ConnectionId) :
    (reg.leaveSeat id conn).2.NumbersLeft := by
  unfold Registry.NumbersLeft
  rw [(SameAccounts.leaveSeat reg id conn).lastUid_eq, lastRoomId_leaveSeat]
  exact h

theorem NumbersLeft.editRoom (conn : ConnectionId) (edit : Listing → Listing) :
    (reg.editRoom conn edit).2.NumbersLeft := by
  unfold Registry.editRoom Registry.updateRoom
  dsimp only
  split <;> exact h

end Numbers

end Registry

/-- A call made on behalf of a connection, in the way sessions make it. -/
def Deed.Own (conn : ConnectionId) (reg : Registry) : Deed → Prop
  | .call c => c.conn = conn ∧ c.Permitted reg ∧ reg.NumbersLeft ∧ c.Housed
  | _ => True

namespace Session

open Deed

variable {rules : Rules} {v : Visitor} {reg : Registry}

/-! ## Calls of a request -/

section Own

theorem own_of_offers {conn : ConnectionId} {ds : List Deed} (h : ∀ d ∈ ds, ∀ c, d ≠ .call c) :
    Each (Own conn) reg ds := by
  refine each_of_mem (fun d hd => ?_) fun d hd => ?_
  · cases d with
    | call c => exact absurd rfl (h _ hd c)
    | send | tell | exhibit => rfl
  · cases d with
    | call c => exact absurd rfl (h _ hd c)
    | send | tell | exhibit => trivial

variable (hn : reg.NumbersLeft)

include hn

theorem seatGivenUp_own (ticketId : UInt32) :
    Each (Own v.conn) reg (seatGivenUp v reg ticketId) := by
  unfold seatGivenUp
  split
  · trivial
  · refine ⟨⟨rfl, trivial, hn, trivial⟩, ?_⟩
    split
    · trivial
    · exact own_of_offers (by simp [tellRoom])

theorem openRoomPlan_own {r : AddGameServer} {ds : List Deed}
    (h : openRoomPlan rules v reg r = .ok ds) : Each (Own v.conn) reg ds := by
  obtain ⟨a, ha, -, rfl⟩ := openRoomPlan_ok h
  have hclosed := hn.closeRoom v.conn
  rw [each_append, each_append, afterAll_append, afterAll_roomClosed]
  refine ⟨⟨⟨⟨rfl, trivial, hn, trivial⟩, ?_⟩, seatGivenUp_own hclosed r.ticketId⟩,
    ⟨⟨rfl, ?_, ?_, trivial⟩, ?_⟩⟩
  · split
    · trivial
    · exact own_of_offers (by simp)
  · -- the account is still there, under its number
    have hstill : (reg.closeRoom v.conn).2.account? v.conn =
        some (forget (reg.roomOf? v.conn) v.conn a) := by
      rw [account?_closeRoom, ha]
      rfl
    obtain ⟨b, hb, huid⟩ := account?_seatGivenUp r.ticketId hstill
    exact ⟨b, hb, huid.trans (uid_forget ..)⟩
  · exact seatGivenUp_preserves r.ticketId hclosed fun id => hclosed.leaveSeat id v.conn
  · exact own_of_offers (by simp [tellRoom])

theorem plan_own {r : Request} {ds : List Deed} (h : plan rules v reg r = .ok ds) :
    Each (Own v.conn) reg ds := by
  have hsubscribe : ∀ {topic on rest}, subscribePlan v reg topic on rest = .ok ds →
      (∀ reg, ∀ d ∈ rest reg, ∀ c, d ≠ .call c) → Each (Own v.conn) reg ds := by
    intro topic on rest h hrest
    obtain ⟨a, -, rfl⟩ := subscribePlan_ok h
    exact ⟨⟨rfl, trivial, hn, trivial⟩, own_of_offers (hrest _)⟩
  have henter : ∀ {entry credentials patchlevel ticketId},
      enterPlan rules v reg entry credentials patchlevel ticketId = .ok ds →
      Each (Own v.conn) reg ds := by
    intro entry credentials patchlevel ticketId h
    rcases enterPlan_ok h with rfl | ⟨-, rfl⟩
    · exact own_of_offers (by simp [Deed.ok])
    · exact ⟨⟨rfl, trivial, hn, rfl⟩, own_of_offers (by simp [Deed.ok])⟩
  cases r with simp only [plan] at h
  | chat r =>
    split at h
    · cases h
    · cases h
      exact own_of_offers (by simp)
  | motd r =>
    split at h
    · cases h
    · cases h
      exact own_of_offers (by simp)
  | login r => exact henter h
  | newAccount r => exact henter h
  | watchChat r => exact hsubscribe h (by simp [Deed.ok])
  | unwatchChat r => exact hsubscribe h (by simp [Deed.ok])
  | watchLogins r => exact hsubscribe h (by simp [Deed.ok])
  | unwatchLogins r => exact hsubscribe h (by simp [Deed.ok])
  | watchRooms r => exact hsubscribe h (by simp [Deed.ok, or_imp, forall_and])
  | unwatchRooms r => exact hsubscribe h (by simp [Deed.ok])
  | openRoom r => exact openRoomPlan_own hn h
  | closeRoom r =>
    obtain ⟨room, -, -, rfl⟩ := closeRoomPlan_ok h
    split
    · exact ⟨⟨rfl, ⟨_, rfl⟩, hn, trivial⟩, trivial, ⟨rfl, trivial, hn.editRoom .., trivial⟩,
        own_of_offers (by simp [Deed.ok])⟩
    · exact ⟨⟨rfl, trivial, hn, trivial⟩, own_of_offers (by simp [Deed.ok])⟩
  | changeRoom r =>
    obtain ⟨room, -, -, -, rfl⟩ := changeRoomPlan_ok h
    exact ⟨⟨rfl, ⟨_, rfl⟩, hn, trivial⟩, own_of_offers (by simp [Deed.ok, tellRoom])⟩
  | joinRoom r =>
    obtain ⟨a, change, ha, -, rfl⟩ := joinRoomPlan_ok h
    exact ⟨⟨rfl, ⟨a, ha⟩, hn, trivial⟩,
      own_of_offers (by simp [Deed.ok, tellRoom, or_imp, forall_and])⟩
  | leaveRoom r =>
    obtain ⟨id, room, -, rfl⟩ := leaveRoomPlan_ok h
    exact ⟨⟨rfl, trivial, hn, trivial⟩, own_of_offers (by simp [Deed.ok, tellRoom])⟩

end Own

end Session

/-- **Conduct.** In a turn each call is made for the own connection, as sessions make calls. -/
theorem Event.deeds_own (rules : Rules) (e : Event) {reg : Registry} (hn : reg.NumbersLeft) :
    Deed.Each (Deed.Own e.conn) reg (e.deeds rules reg) := by
  cases e with
  | frame v f =>
    show Deed.Each _ reg (Session.frameDeeds rules v reg f)
    rcases Session.frameDeeds_cases rules v reg f with heq | ⟨r, ds, -, hplan, heq⟩ | ⟨answer, heq⟩
    · rw [heq]
      trivial
    · rw [heq]
      exact Session.plan_own hn hplan
    · rw [heq]
      exact ⟨trivial, trivial⟩
  | departure conn =>
    show Deed.Each _ reg (Session.departureDeeds reg conn)
    unfold Session.departureDeeds
    split
    · trivial
    · exact ⟨⟨rfl, trivial, hn, trivial⟩, Session.own_of_offers (by simp)⟩

/-! ## Turns keep the registry coherent -/

theorem Deed.Own.coherent {conn : ConnectionId} {reg : Registry} {d : Deed}
    (h : d.Own conn reg) (hco : reg.Coherent) : (d.after reg).Coherent := by
  cases d with
  | call c => exact hco.apply h.2.2.1 h.2.1
  | send | tell | exhibit => exact hco

theorem Event.coherent_turn (rules : Rules) (e : Event) {reg : Registry} (hco : reg.Coherent)
    (hn : reg.NumbersLeft) : (e.turn rules ⟨reg, []⟩).registry.Coherent := by
  rw [Event.registry_turn]
  exact (e.deeds_own rules hn).preserves hco fun _ _ => Deed.Own.coherent

namespace Lobby

/-- The registry of a lobby is coherent, as long as there are numbers left. -/
theorem Passes.coherent {rules : Rules} {l : Lobby} {ms : List Moment}
    (h : Passes rules opened ms l) (hn : ∀ m ∈ ms, m.registry.NumbersLeft) :
    l.registry.Coherent :=
  h.preserves hn coherent_empty fun _ _ e hn hco => e.coherent_turn _ hco hn

end Lobby

end GameLobby
