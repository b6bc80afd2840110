import GameLobby.Proofs.Lobby.Registration
import GameLobby.Proofs.Message.RoundTrip

/-!
# Chat

A chat line is taken out of the message it came in and put into another, with the number of its
sender. The second message has fewer fields, so it fits a frame wherever the first came in one
(`Received.fits_chat`), and everybody who watches chat is offered it
(`Session.messagesFor_chatPosted`). The text is passed on byte for byte, and what is written and
read on the way to a client takes one NUL off its end, if there is one. Main statement:
`chat_relayed`.
-/

namespace GameLobby

open Registry Wire

/-- A string that ends in NUL loses that NUL when it is written and read, and nothing else. -/
theorem Wire.unterminated_append_nul {s : RawText} (h : s.getLast? = some 0) :
    unterminated s ++ [0] = s := by
  obtain ⟨t, rfl⟩ := List.getLast?_eq_some_iff.mp h
  rw [unterminated, if_pos h, List.dropLast_concat]

/-- A chat line that came in a frame can be told in one: there is no mode and no ticket in it, but
the number of its sender. -/
theorem Received.fits_chat {received : Received} {payload : Bytes} {q : ChatMessage}
    (h : ofPayload payload = .ok received) (hle : payload.length ≤ FrameHeader.maxPayload)
    (hmessage : received.message = .chatMessage q) (sender : UInt32) :
    (Message.chat ⟨q.text, sender⟩).fits := by
  have hlength := length_payload_le h
  rw [hmessage, Message.length_payload] at hlength
  have hfields : (Message.chatMessage q).type.fields.length = 3 := rfl
  have hwidth : (Message.chatMessage q).width = 4 + ((4 + (terminated q.text).length) + (4 + 0)) :=
    rfl
  rw [Message.fits_iff]
  show 6 + (4 + (terminated q.text).length + (4 + 0)) ≤ FrameHeader.maxPayload
  have hmax : FrameHeader.maxPayload = 1024 := rfl
  omega

namespace Session

section Chat

variable {rules : Rules} {v : Visitor} {f : Frame} {q : ChatMessage} {reg : Registry} {a : Account}
  (hrequest : request? f = some (.chat q)) (ha : reg.account? v.conn = some a)

include hrequest

theorem fits_chat (hle : f.payload.length ≤ FrameHeader.maxPayload) (sender : UInt32) :
    (Message.chat ⟨q.text, sender⟩).fits := by
  obtain ⟨received, hreceived, hmessage⟩ := received_of_request? hrequest
  have hchat : received.message = .chatMessage q := by
    cases hm : received.message <;> rw [hm] at hmessage <;> cases hmessage
    rfl
  exact received.fits_chat hreceived hle hchat sender

include ha

/-- The turn in which a user posts a chat line. -/
theorem handle_chat : handle rules v f ⟨reg, []⟩ =
    ⟨reg, (News.chatPosted a.uid q.text).offers rules.config.announceLogins reg⟩ := by
  have hplan : plan rules v reg (.chat q) = .ok [.tell (.chatPosted a.uid q.text)] := by
    simp only [plan, ha]
  rw [handle_of_plan hrequest hplan]
  exact congrArg (Turn.mk reg) (List.append_nil _)

/-- Who watches chat is offered the line once, and nobody else is. -/
theorem messagesFor_chatPosted (hho : reg.Housed)
    (hle : f.payload.length ≤ FrameHeader.maxPayload) (c : ConnectionId) :
    Offer.messagesFor c (handle rules v f ⟨reg, []⟩).offers =
      if reg.subscribes .chat c then [.chat ⟨q.text, a.uid.number⟩] else [] := by
  have hfits : (News.chatPosted a.uid q.text).message.fits := fits_chat hrequest hle a.uid.number
  rw [handle_chat hrequest ha]
  refine (News.messagesFor_offers _ _ hho c).trans ?_
  rw [List.filter_cons_of_pos hfits]
  rfl

end Chat

end Session

namespace Lobby

/-- **Chat.** In whatever state a lobby is, a user posts a chat line in a frame. Then the message
made of it fits a frame, and each connection whose account watches chat, the sender's too, is
offered it once, and nobody else is offered anything; who has room in the queue gets it. From the
frame in the queue the client reads the sender's number and the text that was read from the sender,
less a NUL at its end if it has one. The registry stays as it is. -/
theorem chat_relayed {rules : Rules} {l : Lobby} {ms : List Moment} (h : Passes rules opened ms l)
    {v : Visitor} {f : Frame} {q : ChatMessage} {a : Account}
    (hrequest : Session.request? f = some (.chat q)) (hsize : f.payload.length ≤ 1024)
    (ha : l.registry.account? v.conn = some a) :
    let watches := fun c => (l.registry.account? c).any (·.subscriptions.chat)
    let m := Message.chat ⟨q.text, a.uid.number⟩
    let turn := Session.handle rules v f ⟨l.registry, []⟩
    let l' := l.takeTurn (Session.handle rules v f)
    m.payload.length ≤ 1024 ∧ l'.registry = l.registry ∧
    (∀ c, Offer.messagesFor c turn.offers = if watches c then [m] else []) ∧
    (∀ c, l'.lines.get? c = (l.lines.get? c).map (·.pushAll (Offer.messagesFor c turn.offers))) ∧
    (∀ c line, watches c → l.lines.get? c = some line → line.outbox.closed = false →
      line.outbox.queue.length < line.outbox.capacity →
      l'.lines.get? c =
        some { line with
          outbox := { line.outbox with queue := line.outbox.queue ++ [m.frame] } }) ∧
    ∃ text, m.frame.kind = .applicationMessage ∧ m.frame.payload.length ≤ 1024 ∧
      Received.ofPayload m.frame.payload = .ok ⟨165, .chat ⟨text, a.uid.number⟩⟩ ∧
      (q.text.getLast? ≠ some 0 → text = q.text) ∧
      (q.text.getLast? = some 0 → text ++ [0] = q.text) := by
  intro watches m turn l'
  have hfits : m.fits := Session.fits_chat hrequest hsize a.uid.number
  have hturn : turn.registry = l.registry :=
    congrArg Turn.registry (Session.handle_chat hrequest ha)
  have htold : ∀ c, Offer.messagesFor c turn.offers = if watches c then [m] else [] := fun c =>
    Session.messagesFor_chatPosted hrequest ha h.housed hsize c
  have hlines : ∀ c, l'.lines.get? c =
      (l.lines.get? c).map (·.pushAll (Offer.messagesFor c turn.offers)) :=
    get?_lines_takeTurn l (Session.handle rules v f)
  refine ⟨of_decide_eq_true hfits, (registry_takeTurn ..).trans hturn, htold, hlines,
    fun c line hwatches hline hopen hroom => ?_, unterminated q.text, rfl, of_decide_eq_true hfits,
    ?_, fun hlast => ?_, fun hlast => unterminated_append_nul hlast⟩
  · rw [hlines, hline, htold, if_pos hwatches, Option.map_some, Line.pushAll]
    exact congrArg (fun box => some { line with outbox := box })
      (Outbox.push_of_fits hfits hopen hroom)
  · exact Received.ofPayload_payload m (Message.short_of_fits hfits)
  · exact unterminated_eq_self_iff.mpr hlast

/-- Three users log in, and the first two watch chat. -/
def parlour : List Event :=
  [.sent 1 (.requestLogin ⟨[0x41], [], [], 0, 11757, 1⟩),
    .sent 2 (.requestLogin ⟨[0x42], [], [], 0, 11757, 1⟩),
    .sent 3 (.requestLogin ⟨[0x43], [], [], 0, 11757, 1⟩),
    .sent 1 (.regObserverGlobalChat ⟨2⟩),
    .sent 2 (.regObserverGlobalChat ⟨2⟩)]

/-- The first user posts a line that is no text and ends in three NULs. Two are left in what the
lobby passes on, and one in what the watchers read. The third user is told nothing. -/
theorem parlour_hears_line :
    let l := takeTurns .plain gathered parlour
    let f := sentFrame (.chatMessage ⟨0, [0xFF, 0, 0, 0], 7⟩)
    let m := Message.chat ⟨[0xFF, 0, 0], 1⟩
    let l' := l.takeTurn (Session.handle .plain (.numbered 1) f)
    l'.registry = l.registry ∧
      (∀ c, c = ⟨1⟩ ∨ c = ⟨2⟩ → ∃ line, l.lines.get? c = some line ∧
        (l'.lines.get? c).map (·.outbox.queue) = some (line.outbox.queue ++ [m.frame])) ∧
      l'.lines.get? ⟨3⟩ = l.lines.get? ⟨3⟩ ∧
      Received.ofPayload m.frame.payload = .ok ⟨165, .chat ⟨[0xFF, 0], 1⟩⟩ := by
  dsimp only
  have ha : (takeTurns .plain gathered parlour).registry.account? ⟨1⟩ =
      some ⟨⟨1⟩, ⟨1⟩, [0x41], ⟨true, false, false⟩, none, ⟨1⟩⟩ := by decide +kernel
  obtain ⟨-, hreg, htold, hlines, hqueued, text, -, -, hread, -, htext⟩ := chat_relayed
    (passes_gathered parlour) (v := .numbered 1)
    (show Session.request? (sentFrame (.chatMessage ⟨0, [0xFF, 0, 0, 0], 7⟩)) =
      some (.chat ⟨0, [0xFF, 0, 0], 7⟩) by decide +kernel) (by decide) ha
  have htrimmed : text ++ [0] = [0xFF, 0] ++ [0] := htext rfl
  obtain rfl := List.append_cancel_right htrimmed
  refine ⟨hreg, fun c hc => ?_, ?_, hread⟩
  · have hwatches : ((takeTurns .plain gathered parlour).registry.account? c).any
        (·.subscriptions.chat) := by
      rcases hc with rfl | rfl <;> decide +kernel
    have hroom : ((takeTurns .plain gathered parlour).lines.get? c).any fun line =>
        line.outbox.closed = false ∧ line.outbox.queue.length < line.outbox.capacity := by
      rcases hc with rfl | rfl <;> decide +kernel
    obtain ⟨line, hline, htakes⟩ := (Option.any_eq_true ..).mp hroom
    obtain ⟨hopen, hroom⟩ := of_decide_eq_true htakes
    exact ⟨line, hline, by rw [hqueued c line hwatches hline hopen hroom]; rfl⟩
  · have hsilent : ¬ ((takeTurns .plain gathered parlour).registry.account? ⟨3⟩).any
        (·.subscriptions.chat) := by decide +kernel
    rw [hlines, htold, if_neg hsilent]
    exact Option.map_id_apply

end Lobby

end GameLobby
