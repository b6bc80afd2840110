import GameLobby.Proofs.Lobby.Deliveries
import GameLobby.Proofs.Registry.Footprint

/-!
# Who is told

News goes to the outboxes of the accounts that have subscribed to its topic. In the lobby that is
the outbox of the account's own connection, so every connection gets each message of some news once
if its account has subscribed, and otherwise not at all (`News.messagesFor_offers`).
-/

namespace GameLobby

/-- Whether a connection has an account that has subscribed to a topic. -/
def Registry.subscribes (reg : Registry) (t : Topic) (c : ConnectionId) : Bool :=
  (reg.account? c).any (·.subscriptions.get t)

/-- Who has subscribed goes on getting the news, unless it logs out or wants no more. -/
theorem Registry.subscribes_apply {reg : Registry} {call : Call} {t : Topic} {c : ConnectionId}
    (hout : call ≠ .logOut c) (hset : call ≠ .setSubscription c t false)
    (hsub : reg.subscribes t c) : (call.apply reg).subscribes t c := by
  obtain ⟨a, ha, hget⟩ := (Option.any_eq_true _ _).mp hsub
  obtain ⟨b, hb, -, hsubs⟩ := account?_apply call ha hout
  unfold subscribes
  rw [hb, Option.any_some, hsubs]
  exact Call.get_subscriptions hset hget

namespace Registry.Housed

variable {reg : Registry} (h : reg.Housed)

include h

theorem map_outbox_values : reg.accounts.values.map (·.outbox) = reg.accounts.keys := by
  have hentry : ∀ e ∈ reg.accounts.entries, e.2.outbox = e.1 := fun e he =>
    h e.1 e.2 (Table.get?_eq_some_iff.mpr he)
  show (reg.accounts.entries.map Prod.snd).map (·.outbox) = reg.accounts.entries.map Prod.fst
  rw [List.map_map]
  exact List.map_congr_left hentry

/-- Nobody is told the same news twice. -/
theorem nodup_recipients (news : News) : (news.recipients reg).Nodup := by
  have hall : (reg.accounts.values.map (·.outbox)).Nodup :=
    h.map_outbox_values ▸ reg.accounts.nodup
  have hsome : ((reg.accounts.values.filter (·.subscriptions.get news.topic)).map
      (·.outbox)).Nodup := hall.sublist (List.filter_sublist.map _)
  exact ((ascending_perm _ _).map _).nodup_iff.mpr hsome

theorem mem_recipients_iff {news : News} {c : ConnectionId} :
    c ∈ news.recipients reg ↔ reg.subscribes news.topic c := by
  unfold News.recipients subscribers subscribes
  rw [Option.any_eq_true]
  constructor
  · intro hc
    obtain ⟨a, ha, rfl⟩ := List.mem_map.mp hc
    obtain ⟨hmem, hsubs⟩ := List.mem_filter.mp (mem_ascending.mp ha)
    obtain ⟨conn, hconn⟩ := Table.mem_values_iff.mp hmem
    rw [h conn a hconn]
    exact ⟨a, hconn, hsubs⟩
  · rintro ⟨a, ha, hsubs⟩
    have hmem : a ∈ reg.accounts.values := Table.mem_values_iff.mpr ⟨c, ha⟩
    exact List.mem_map.mpr
      ⟨a, mem_ascending.mpr (List.mem_filter.mpr ⟨hmem, hsubs⟩), h c a ha⟩

end Registry.Housed

/-- What one of several recipients is offered, if each is named once. -/
theorem Message.messagesFor_offers (m : Message) {recipients : List ConnectionId}
    (hnodup : recipients.Nodup) (c : ConnectionId) :
    Offer.messagesFor c (m.offers recipients) =
      if c ∈ recipients then [m].filter Message.fits else [] := by
  unfold Message.offers
  by_cases hfits : m.fits
  · rw [if_pos hfits, List.filter_cons_of_pos hfits, List.filter_nil]
    induction recipients with
    | nil => rfl
    | cons r rs ih =>
      obtain ⟨hr, hrs⟩ := List.nodup_cons.mp hnodup
      rw [List.map_cons, Offer.messagesFor_cons, ih hrs]
      by_cases hc : r = c
      · subst hc
        simp [hr]
      · simp [hc, Ne.symm hc]
  · rw [if_neg hfits, List.filter_cons_of_neg hfits, List.filter_nil, ite_self]
    rfl

/-- What a connection is offered of some news: if its account has subscribed to the topic, all that
fits a frame. -/
theorem News.messagesFor_offers (news : News) (announce : Bool) {reg : Registry}
    (h : reg.Housed) (c : ConnectionId) :
    Offer.messagesFor c (news.offers announce reg) =
      if reg.subscribes news.topic c then
        (news.message :: news.chatLine announce).filter Message.fits
      else [] := by
  have hone : ∀ m : Message, Offer.messagesFor c (m.offers (news.recipients reg)) =
      if reg.subscribes news.topic c then [m].filter Message.fits else [] := by
    intro m
    rw [m.messagesFor_offers (h.nodup_recipients news) c]
    simp only [h.mem_recipients_iff]
  unfold News.offers
  induction news.message :: news.chatLine announce with
  | nil => exact (ite_self []).symm
  | cons m ms ih =>
    rw [List.flatMap_cons, Offer.messagesFor_append, hone, ih, ← List.singleton_append (l := ms),
      List.filter_append]
    split <;> simp

end GameLobby
