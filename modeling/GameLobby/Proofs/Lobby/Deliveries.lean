import GameLobby.Proofs.Lobby.History
import GameLobby.Proofs.Message.Size

/-!
# Deliveries

What is offered in a turn reaches outboxes one by one: each gets what is offered to it, in order,
and does not see what is offered to others (`get?_lines_deliver`). An open outbox with room for all
of it takes in every message that fits a frame (`Outbox.HasRoom.queue_pushAll`). If every push to a
connection was taken in, it was queued all that it was offered (`Moment.AcceptedBy.frames_eq`).
-/

namespace GameLobby

/-! ## One outbox -/

/-- The messages that are offered to a connection. -/
def Offer.messagesFor (c : ConnectionId) (offers : List Offer) : List Message :=
  (offers.filter (·.recipient = c)).map (·.message)

theorem Offer.messagesFor_cons (c : ConnectionId) (o : Offer) (offers : List Offer) :
    messagesFor c (o :: offers) =
      if o.recipient = c then o.message :: messagesFor c offers else messagesFor c offers := by
  unfold messagesFor
  rw [List.filter_cons]
  by_cases hc : o.recipient = c
  · rw [if_pos (decide_eq_true hc), if_pos hc]
    rfl
  · rw [if_neg (by simpa using hc), if_neg hc]

@[simp] theorem Offer.messagesFor_append (c : ConnectionId) (offers offers' : List Offer) :
    messagesFor c (offers ++ offers') = messagesFor c offers ++ messagesFor c offers' := by
  unfold messagesFor
  rw [List.filter_append, List.map_append]

theorem Offer.messagesFor_flatMap {α : Type} (c : ConnectionId) (l : List α)
    (f : α → List Offer) :
    messagesFor c (l.flatMap f) = l.flatMap fun a => messagesFor c (f a) := by
  induction l with
  | nil => rfl
  | cons a l ih => rw [List.flatMap_cons, messagesFor_append, ih, List.flatMap_cons]

/-- What is sent to one connection is offered to no other. -/
theorem Offer.messagesFor_script (c conn : ConnectionId) (ms : List Message) :
    messagesFor c (ms.map fun m => ⟨conn, m⟩) = if conn = c then ms else [] := by
  induction ms with
  | nil => rw [ite_self]; rfl
  | cons m ms ih =>
    rw [List.map_cons, messagesFor_cons, ih]
    split <;> rfl

theorem Offer.mem_messagesFor {c : ConnectionId} {m : Message} {offers : List Offer} :
    m ∈ messagesFor c offers ↔ ⟨c, m⟩ ∈ offers := by
  unfold messagesFor
  constructor
  · intro hm
    obtain ⟨o, ho, rfl⟩ := List.mem_map.mp hm
    obtain ⟨hmem, hc⟩ := List.mem_filter.mp ho
    rw [← of_decide_eq_true hc]
    exact hmem
  · intro hm
    exact List.mem_map.mpr ⟨⟨c, m⟩, List.mem_filter.mpr ⟨hm, decide_eq_true rfl⟩, rfl⟩

/-- Everybody to whom a message is offered is offered that message. -/
theorem Message.message_eq_of_mem_offers {m : Message} {recipients : List ConnectionId} {o : Offer}
    (h : o ∈ m.offers recipients) : o.message = m := by
  unfold Message.offers at h
  split at h
  · obtain ⟨conn, -, rfl⟩ := List.mem_map.mp h
    rfl
  · cases h

/-- What comes with news is a chat line. -/
theorem News.chat_of_mem_chatLine {announce : Bool} {news : News} {m : Message}
    (hm : m ∈ news.chatLine announce) : ∃ line, m = .chat line := by
  cases news with
  | loggedIn uid name =>
    cases announce with
    | true => exact ⟨_, List.mem_singleton.mp hm⟩
    | false => exact nomatch hm
  | loggedOut uid name =>
    cases announce with
    | true => exact ⟨_, List.mem_singleton.mp hm⟩
    | false => exact nomatch hm
  | _ => exact nomatch hm

/-- An outbox after messages were pushed to it. -/
def Outbox.pushAll (o : Outbox) (ms : List Message) : Outbox :=
  ms.foldl (fun o m => (o.push m.frame).2) o

namespace Outbox

variable {o : Outbox} {m : Message}

theorem push_of_fits (hfits : m.fits) (hopen : o.closed = false)
    (hroom : o.queue.length < o.capacity) :
    (o.push m.frame).2 = { o with queue := o.queue ++ [m.frame] } := by
  have hle : m.frame.payload.length ≤ FrameHeader.maxPayload := of_decide_eq_true hfits
  rw [push_of_room hle hopen hroom]

theorem push_of_not_fits (hfits : ¬ m.fits) : (o.push m.frame).2 = o := by
  rw [push_of_large (Nat.not_le.mp fun hle => hfits (decide_eq_true hle))]

/-- An outbox is open and has room for all of some messages that fit a frame. -/
structure HasRoom (o : Outbox) (ms : List Message) : Prop where
  closed_eq : o.closed = false
  room_le : o.queue.length + (ms.filter Message.fits).length ≤ o.capacity

instance (o : Outbox) (ms : List Message) : Decidable (o.HasRoom ms) :=
  decidable_of_iff
    (o.closed = false ∧ o.queue.length + (ms.filter Message.fits).length ≤ o.capacity)
    ⟨fun h => ⟨h.1, h.2⟩, fun h => ⟨h.closed_eq, h.room_le⟩⟩

/-- An outbox takes in nothing of what does not fit a frame. -/
theorem pushAll_of_not_fits {ms : List Message} (h : ∀ m ∈ ms, ¬ m.fits) : o.pushAll ms = o := by
  induction ms with
  | nil => rfl
  | cons m ms ih =>
    obtain ⟨hm, hms⟩ := List.forall_mem_cons.mp h
    show (o.push m.frame).2.pushAll ms = o
    rw [push_of_not_fits hm, ih hms]

/-- An open outbox takes in what fits a frame as long as it has room, and a kick is stored as soon
as there is more. -/
theorem pushAll_eq (hopen : o.closed = false) (hle : o.queue.length ≤ o.capacity)
    (ms : List Message) :
    o.pushAll ms =
      { o with
        queue := o.queue ++
          ((ms.filter Message.fits).take (o.capacity - o.queue.length)).map (·.frame)
        kicked := o.kicked ||
          decide (o.capacity < o.queue.length + (ms.filter Message.fits).length) } := by
  induction ms generalizing o with
  | nil =>
    have hroom : ¬ o.capacity < o.queue.length := Nat.not_lt.mpr hle
    simp [pushAll, hroom]
  | cons m ms ih =>
    show (o.push m.frame).2.pushAll ms = _
    by_cases hfits : m.fits
    · rw [List.filter_cons_of_pos hfits, List.length_cons]
      by_cases hroom : o.queue.length < o.capacity
      · let o' : Outbox := { o with queue := o.queue ++ [m.frame] }
        have hlength : o'.queue.length = o.queue.length + 1 := by
          rw [List.length_append, List.length_singleton]
        have hrest := @ih o' hopen (hlength ▸ hroom)
        have htake : o.capacity - o.queue.length = o.capacity - (o.queue.length + 1) + 1 := by omega
        have hkicked : o.queue.length + 1 + (ms.filter Message.fits).length =
            o.queue.length + ((ms.filter Message.fits).length + 1) := by omega
        rw [push_of_fits hfits hopen hroom, hrest, hlength, hkicked, htake, List.take_succ_cons,
          List.map_cons, ← List.append_cons]
      · have hfull : o.capacity = o.queue.length := Nat.le_antisymm (Nat.not_lt.mp hroom) hle
        have hsize : m.frame.payload.length ≤ FrameHeader.maxPayload := of_decide_eq_true hfits
        have hpush : (o.push m.frame).2 = o.kick := by
          rw [push_of_full hsize hopen (Nat.le_of_eq hfull)]
        have hkicked : decide (o.capacity < o.queue.length +
            ((ms.filter Message.fits).length + 1)) = true := decide_eq_true (by omega)
        rw [hpush, @ih o.kick hopen hle, hkicked]
        simp [kick, hfull]
    · rw [push_of_not_fits hfits, List.filter_cons_of_neg hfits]
      exact ih hopen hle

/-- An outbox takes in what fits a frame, if it has room for it. -/
theorem HasRoom.queue_pushAll {ms : List Message} (h : o.HasRoom ms) :
    (o.pushAll ms).queue = o.queue ++ (ms.filter Message.fits).map (·.frame) := by
  have hroom := h.room_le
  rw [pushAll_eq h.closed_eq (by omega) ms, List.take_of_length_le (by omega)]

end Outbox

/-- A line after messages were pushed to its outbox. -/
def Line.pushAll (line : Line) (ms : List Message) : Line :=
  { line with outbox := line.outbox.pushAll ms }

/-! ## Every outbox -/

namespace Lobby

/-- A push changes the line of its connection and no other. -/
theorem get?_lines_push (l : Lobby) (conn : ConnectionId) (f : OutboundFrame) (c : ConnectionId) :
    (l.push conn f).2.lines.get? c =
      if c = conn then (l.lines.get? c).map fun line => (line.push f).2 else l.lines.get? c := by
  unfold push
  split
  · rename_i hnone
    split
    · rename_i hc
      rw [hc, hnone]
      rfl
    · rfl
  · rename_i line hline
    have hinsert : ∀ line', (l.lines.insert conn line').get? c =
        if c = conn then (l.lines.get? c).map fun _ => line' else l.lines.get? c := by
      intro line'
      rw [Table.get?_insert]
      split
      · rename_i hc
        rw [hc, hline]
        rfl
      · rfl
    split
    · rename_i line' hpush
      rw [lines_enqueue, lines_updateLine, hinsert]
      split
      · rename_i hc
        rw [hc, hline, Option.map_some, Option.map_some, hpush]
      · rfl
    · rename_i e line' hpush
      rw [lines_updateLine, hinsert]
      split
      · rename_i hc
        rw [hc, hline, Option.map_some, Option.map_some, hpush]
      · rfl

/-- Each line gets what is offered to its connection. -/
theorem get?_lines_deliver (l : Lobby) (offers : List Offer) (c : ConnectionId) :
    (l.deliver offers).lines.get? c =
      (l.lines.get? c).map (·.pushAll (Offer.messagesFor c offers)) := by
  induction offers generalizing l with
  | nil => exact (Option.map_id_apply).symm
  | cons o offers ih =>
    have hstep : l.deliver (o :: offers) =
        (l.push o.recipient o.message.frame).2.deliver offers := rfl
    rw [hstep, ih, get?_lines_push, Offer.messagesFor_cons]
    by_cases hc : o.recipient = c
    · rw [if_pos hc.symm, if_pos hc, Option.map_map]
      rfl
    · rw [if_neg (Ne.symm hc), if_neg hc]

/-- Each line gets what is offered to its connection in a turn. -/
theorem get?_lines_takeTurn (l : Lobby) (turn : Turn → Turn) (c : ConnectionId) :
    (l.takeTurn turn).lines.get? c =
      (l.lines.get? c).map (·.pushAll (Offer.messagesFor c (turn ⟨l.registry, []⟩).offers)) :=
  get?_lines_deliver ..

theorem handle_of_greeted (rules : Rules) {l : Lobby} {conn : ConnectionId} {s : OpenSession}
    (hs : l.sessions.get? conn = some s) (hgreeted : s.greeted) (f : Frame) :
    handle rules conn f l = l.takeTurn (Session.handle rules s.visitor f) := by
  unfold handle
  rw [hs]
  exact if_pos hgreeted

end Lobby

/-! ## What was taken in -/

/-- Every push to a connection was taken in. -/
def Moment.AcceptedBy (c : ConnectionId) (m : Moment) : Prop :=
  ∀ p ∈ m.pushed, p.1.recipient = c → p.2

instance (c : ConnectionId) (m : Moment) : Decidable (m.AcceptedBy c) :=
  inferInstanceAs (Decidable (∀ p ∈ m.pushed, p.1.recipient = c → p.2))

/-- The frames are all that was offered. -/
theorem Moment.AcceptedBy.frames_eq {c : ConnectionId} {m : Moment} (h : m.AcceptedBy c) :
    m.frames c = (Offer.messagesFor c (m.pushed.map Prod.fst)).map (·.frame) := by
  unfold Moment.frames Offer.messagesFor
  rw [List.filter_map, List.map_map, List.map_map]
  have hfilter : m.pushed.filter (fun p => decide (p.1.recipient = c ∧ p.2)) =
      m.pushed.filter ((fun o => decide (o.recipient = c)) ∘ Prod.fst) := by
    refine List.filter_congr fun p hp => ?_
    by_cases hc : p.1.recipient = c
    · simp [hc, h p hp hc]
    · simp [hc]
  rw [hfilter]
  rfl

namespace Lobby

theorem fits_of_push {l : Lobby} {conn : ConnectionId} {m : Message}
    (h : (l.push conn m.frame).1.isOk) : m.fits := by
  unfold push at h
  split at h
  · exact nomatch h
  · rename_i line _
    split at h
    · rename_i hpush
      exact Outbox.fits_of_push (congrArg Prod.fst hpush)
    · exact nomatch h

theorem fits_of_mem_outcomes {l : Lobby} {offers : List Offer} {o : Offer}
    (h : (o, true) ∈ l.outcomes offers) : o.message.fits := by
  induction offers generalizing l with
  | nil => exact nomatch h
  | cons o' offers ih =>
    rcases List.mem_cons.mp h with heq | h
    · obtain ⟨rfl, hok⟩ := Prod.mk.inj heq
      exact fits_of_push hok.symm
    · exact ih h

/-- What an outbox took in fits a frame. -/
theorem fits_of_accepted {rules : Rules} {l : Lobby} {e : Event} {c : ConnectionId}
    (h : (l.moment rules e).AcceptedBy c) :
    ∀ m ∈ Offer.messagesFor c (Deed.offersAll rules l.registry (e.deeds rules l.registry)),
      m.fits := by
  intro m hm
  rw [← offers_moment, Offer.mem_messagesFor] at hm
  obtain ⟨⟨o, taken⟩, hp, ho⟩ := List.mem_map.mp hm
  obtain rfl : o = ⟨c, m⟩ := ho
  obtain rfl : taken = true := h _ hp rfl
  have hfits := fits_of_mem_outcomes hp
  exact hfits

end Lobby

end GameLobby
