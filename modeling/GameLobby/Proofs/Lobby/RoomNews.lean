import GameLobby.Proofs.Lobby.Advertising
import GameLobby.Proofs.Lobby.Recipients

/-!
# What is said about rooms

A request about rooms changes no account, but for the rooms that are joined, so those who watch
rooms are the same all through it. What one connection is told can be read off the deeds one by one,
if everything in them fits a frame (`Deed.messagesFor_offersAll`).
-/

namespace GameLobby

open Registry

/-! ## Who watches -/

namespace Registry

/-- A call that leaves accounts alone, but for the rooms that they have joined. -/
def Call.AboutRooms : Call → Prop
  | .logIn .. | .logOut _ | .setSubscription .. => False
  | _ => True

theorem Call.AboutRooms.sameAccounts {call : Call} (h : call.AboutRooms) (reg : Registry) :
    reg.SameAccounts (call.apply reg) := by
  have hsame := call.sameAccounts reg
  cases call with
  | logIn | logOut | setSubscription => exact h.elim
  | openRoom | closeRoom | updateRoom | takeSeat | changeSeat | leaveSeat => exact hsame

namespace SameAccounts

variable {reg reg' : Registry} (h : reg.SameAccounts reg')

include h

/-- The same accounts have subscribed to a topic. -/
theorem subscribes_eq (t : Topic) (c : ConnectionId) :
    reg'.subscribes t c = reg.subscribes t c := by
  obtain ⟨j, hj⟩ := h.account?_eq c
  unfold subscribes
  rw [hj]
  cases reg.account? c <;> rfl

theorem housed (hho : reg.Housed) : reg'.Housed := by
  intro c b hb
  obtain ⟨j, hj⟩ := h.account?_eq c
  rw [hj] at hb
  obtain ⟨a, ha, rfl⟩ := Option.map_eq_some_iff.mp hb
  exact hho c a ha

end SameAccounts

end Registry

/-! ## What is heard -/

namespace Deed

/-- A deed of a request about rooms, all of which fits a frame. -/
def AboutRooms : Deed → Prop
  | .call k => k.AboutRooms
  | .send .. => True
  | .tell news => news.topic = .rooms ∧ news.message.fits
  | .exhibit recipients m => recipients.Nodup ∧ m.fits

/-- What a connection hears of a deed, if it watches rooms or else does not. -/
def heard (watches : Bool) (c : ConnectionId) : Deed → List Message
  | .call _ => []
  | .send conn m => if conn = c then [m] else []
  | .tell news => if watches then [news.message] else []
  | .exhibit recipients m => if c ∈ recipients then [m] else []

variable {rules : Rules} {reg : Registry} {d : Deed}

theorem AboutRooms.sameAccounts (h : d.AboutRooms) (reg : Registry) :
    reg.SameAccounts (d.after reg) := by
  cases d with
  | call k => exact Call.AboutRooms.sameAccounts h reg
  | send | tell | exhibit => exact .refl reg

theorem AboutRooms.messagesFor_offers (h : d.AboutRooms) (rules : Rules) (hho : reg.Housed)
    (c : ConnectionId) :
    Offer.messagesFor c (d.offers rules reg) = d.heard (reg.subscribes .rooms c) c := by
  cases d with
  | call k => rfl
  | send conn m => exact Offer.messagesFor_cons c ⟨conn, m⟩ []
  | tell news =>
    obtain ⟨htopic, hfits⟩ := h
    have hline : news.chatLine rules.config.announceLogins = [] := by
      cases news with
      | loggedIn | loggedOut | chatPosted => exact nomatch htopic
      | roomUpdated | roomRemoved => rfl
    show Offer.messagesFor c (news.offers _ reg) = _
    rw [news.messagesFor_offers _ hho, hline, htopic, List.filter_cons_of_pos hfits]
    rfl
  | exhibit recipients m =>
    obtain ⟨hnodup, hfits⟩ := h
    show Offer.messagesFor c (m.offers recipients) = _
    rw [m.messagesFor_offers hnodup, List.filter_cons_of_pos hfits]
    rfl

/-- What a connection hears of a request about rooms is what it hears of its deeds. -/
theorem messagesFor_offersAll (rules : Rules) {ds : List Deed} (h : ∀ d ∈ ds, d.AboutRooms)
    (hho : reg.Housed) (c : ConnectionId) :
    Offer.messagesFor c (offersAll rules reg ds) =
      ds.flatMap (heard (reg.subscribes .rooms c) c) := by
  induction ds generalizing reg with
  | nil => rfl
  | cons d ds ih =>
    obtain ⟨hd, hds⟩ := List.forall_mem_cons.mp h
    have hsame := hd.sameAccounts reg
    have hrest := ih hds (hsame.housed hho)
    show Offer.messagesFor c (d.offers rules reg ++ offersAll rules (d.after reg) ds) = _
    rw [Offer.messagesFor_append, hd.messagesFor_offers rules hho, hrest, hsame.subscribes_eq,
      List.flatMap_cons]

theorem sameAccounts_afterAll {ds : List Deed} (h : ∀ d ∈ ds, d.AboutRooms) (reg : Registry) :
    reg.SameAccounts (afterAll reg ds) := by
  induction ds generalizing reg with
  | nil => exact .refl reg
  | cons d ds ih =>
    obtain ⟨hd, hds⟩ := List.forall_mem_cons.mp h
    exact (hd.sameAccounts reg).trans (ih hds _)

/-! ### Deeds about rooms -/

theorem aboutRooms_tellRoom {room : Room} (h : room.settings.Fits) (ticketId : UInt32) :
    (tellRoom ticketId room).AboutRooms :=
  ⟨rfl, (room.fits_snapshot_iff ticketId).mpr h⟩

theorem aboutRooms_tellRemoved (r : RemoveServer) :
    (Deed.tell (.roomRemoved r)).AboutRooms :=
  ⟨rfl, Message.fits_removeServer r⟩

theorem aboutRooms_ok (v : Visitor) (ticketId : UInt32) : (Deed.ok v ticketId).AboutRooms :=
  trivial

end Deed

end GameLobby
