import GameLobby.Proofs.Lobby.Recipients
import GameLobby.Proofs.Message.RoundTrip
import GameLobby.Proofs.Registry.Users

/-!
# What watchers of logins know

A client that watches logins keeps a roster: a user who logs in is put on it, a user who logs out is
taken off. Who is on the roster depends on the last thing that was told of each user
(`Roster.mem_receiveAll`), and that can be read off the messages that were offered (`told_frames`,
`News.told_offers`).
-/

namespace GameLobby

open Registry

/-! ## Rosters -/

/-- What a message tells of a user. -/
def Message.tells? (u : UserId) : Message → Option Presence
  | .userLoggedIn m => if ⟨m.userId⟩ = u then some .came else none
  | .userLoggedOut m => if ⟨m.userId⟩ = u then some .went else none
  | _ => none

/-- The message that a frame carries, if there is one. -/
def OutboundFrame.message? (f : OutboundFrame) : Option Message :=
  if f.kind = .applicationMessage then
    match Received.ofPayload f.payload with
    | .ok received => some received.message
    | .error _ => none
  else none

/-- What frames tell of a user, in order. -/
def OutboundFrame.told (u : UserId) (fs : List OutboundFrame) : List Presence :=
  fs.filterMap fun f => f.message?.bind (·.tells? u)

/-- The users who are there, as far as a watcher of logins knows. -/
abbrev Roster := List UserId

namespace Roster

/-- The roster after a message. -/
def learn (r : Roster) : Message → Roster
  | .userLoggedIn m => r.insert ⟨m.userId⟩
  | .userLoggedOut m => r.filter (· ≠ ⟨m.userId⟩)
  | _ => r

/-- The roster after a frame. -/
def receive (r : Roster) (f : OutboundFrame) : Roster :=
  match f.message? with
  | some m => r.learn m
  | none => r

/-- The roster after some frames. -/
def receiveAll (r : Roster) (fs : List OutboundFrame) : Roster :=
  fs.foldl receive r

theorem mem_learn {r : Roster} {m : Message} {u : UserId} :
    u ∈ r.learn m ↔ m.tells? u = some .came ∨ m.tells? u = none ∧ u ∈ r := by
  cases m with
  | userLoggedIn m =>
    by_cases hu : ⟨m.userId⟩ = u
    · simp [learn, Message.tells?, hu]
    · simp [learn, Message.tells?, hu, Ne.symm hu]
  | userLoggedOut m =>
    by_cases hu : ⟨m.userId⟩ = u
    · simp [learn, Message.tells?, hu]
    · simp [learn, Message.tells?, hu, Ne.symm hu]
  | _ => simp [learn, Message.tells?]

theorem mem_receive {r : Roster} {f : OutboundFrame} {u : UserId} :
    u ∈ r.receive f ↔ f.message?.bind (·.tells? u) = some .came ∨
      f.message?.bind (·.tells? u) = none ∧ u ∈ r := by
  unfold receive
  cases f.message? with
  | none => simp
  | some m => exact mem_learn

/-- A user is on the roster if the last that was told is that it came, or nothing was told and it
was on the roster before. -/
theorem mem_receiveAll {r : Roster} {fs : List OutboundFrame} {u : UserId} :
    u ∈ r.receiveAll fs ↔ (OutboundFrame.told u fs).getLast? = some .came ∨
      OutboundFrame.told u fs = [] ∧ u ∈ r := by
  induction fs generalizing r with
  | nil => simp [receiveAll, OutboundFrame.told]
  | cons f fs ih =>
    have hrest := @ih (r.receive f)
    rw [mem_receive] at hrest
    show u ∈ (r.receive f).receiveAll fs ↔ _
    rw [hrest]
    unfold OutboundFrame.told
    rw [List.filterMap_cons]
    cases f.message?.bind (·.tells? u) with
    | none => simp
    | some p =>
      generalize fs.filterMap (fun f => f.message?.bind (·.tells? u)) = later
      cases later with
      | nil => simp
      | cons q later => simp

end Roster

/-! ## What a connection is told -/

/-- A string that is cut short is no user. -/
theorem Message.tells?_trimmed (u : UserId) (m : Message) : m.trimmed.tells? u = m.tells? u := by
  cases m <;> rfl

theorem OutboundFrame.told_append (u : UserId) (fs gs : List OutboundFrame) :
    told u (fs ++ gs) = told u fs ++ told u gs :=
  List.filterMap_append ..

/-- What is told in parts is told in all. -/
theorem OutboundFrame.told_flatMap {α : Type} {u : UserId} {l : List α}
    {frames : α → List OutboundFrame} {change? : α → Option Presence}
    (h : ∀ a ∈ l, told u (frames a) = (change? a).toList) :
    told u (l.flatMap frames) = l.filterMap change? := by
  induction l with
  | nil => rfl
  | cons a l ih =>
    obtain ⟨ha, hl⟩ := List.forall_mem_cons.mp h
    rw [List.flatMap_cons, told_append, ha, ih hl, List.filterMap_cons]
    cases change? a <;> rfl

theorem Message.message?_frame {m : Message} (h : m.fits) : m.frame.message? = some m.trimmed := by
  have hkind : m.frame.kind = .applicationMessage := rfl
  have hpayload : m.frame.payload = m.payload := rfl
  unfold OutboundFrame.message?
  rw [if_pos hkind, hpayload, Received.ofPayload_payload m (Message.short_of_fits h)]

/-- Frames tell what the messages tell that they carry. -/
theorem OutboundFrame.told_frames (u : UserId) {ms : List Message} (h : ∀ m ∈ ms, m.fits) :
    told u (ms.map (·.frame)) = ms.filterMap (·.tells? u) := by
  induction ms with
  | nil => rfl
  | cons m ms ih =>
    obtain ⟨hm, hms⟩ := List.forall_mem_cons.mp h
    have hrest := ih hms
    unfold told at hrest ⊢
    rw [List.map_cons, List.filterMap_cons, List.filterMap_cons, Message.message?_frame hm,
      Option.bind_some, m.tells?_trimmed, hrest]

/-- What offers tell a connection of a user. -/
def Offer.told (c : ConnectionId) (u : UserId) (offers : List Offer) : List Presence :=
  (messagesFor c offers).filterMap (·.tells? u)

section Told

variable {c : ConnectionId} {u : UserId}

theorem Offer.told_append (offers offers' : List Offer) :
    told c u (offers ++ offers') = told c u offers ++ told c u offers' := by
  unfold told
  rw [messagesFor_append, List.filterMap_append]

/-- Offers that say nothing of a user to a connection. -/
theorem Offer.told_of_silent {offers : List Offer}
    (h : ∀ o ∈ offers, o.recipient = c → o.message.tells? u = none) : told c u offers = [] :=
  List.filterMap_eq_nil_iff.mpr fun m hm => h ⟨c, m⟩ (mem_messagesFor.mp hm) rfl

/-- What comes with news says nothing of users. -/
theorem News.filterMap_chatLine (announce : Bool) (news : News) :
    (news.chatLine announce).filterMap (·.tells? u) = [] :=
  List.filterMap_eq_nil_iff.mpr fun m hm => by
    obtain ⟨line, rfl⟩ := chat_of_mem_chatLine hm
    rfl

/-- News tells a connection of a user if the account has subscribed, and not otherwise. -/
theorem News.told_offers (announce : Bool) {reg : Registry} (hho : reg.Housed) {news : News}
    (hfits : news.message.fits) :
    Offer.told c u (news.offers announce reg) =
      if reg.subscribes news.topic c then (news.message.tells? u).toList else [] := by
  unfold Offer.told
  rw [news.messagesFor_offers announce hho c]
  split
  · have hline : ((news.chatLine announce).filter Message.fits).filterMap (·.tells? u) = [] :=
      List.filterMap_eq_nil_iff.mpr fun m hm =>
        List.filterMap_eq_nil_iff.mp (news.filterMap_chatLine announce) m
          (List.mem_filter.mp hm).1
    rw [List.filter_cons_of_pos hfits, List.filterMap_cons, hline]
    cases news.message.tells? u <;> rfl
  · rfl

end Told

end GameLobby
