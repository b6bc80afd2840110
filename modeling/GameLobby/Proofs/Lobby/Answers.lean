import GameLobby.Proofs.Lobby.Deliveries
import GameLobby.Proofs.Lobby.Moves
import GameLobby.Proofs.Message.RoundTrip
import GameLobby.Proofs.Session.Outcome

/-!
# One answer to each request

Of all that a client is sent, only the outcome of a request and the message of the day answer
something. News never does, nor does what is shown of rooms and users, so the answers in a turn are
those that its deeds send (`answers_offersAll`). A request that is carried out sends one, and a chat
line none (`plan_answers`); a request that is rejected sends one that fits a frame. Main statement:
`one_answer`.
-/

namespace GameLobby

/-! ## Answers among messages -/

/-- Whether messages of a type answer requests. -/
def MessageType.isAnswer : MessageType → Bool
  | .resultMessage | .resultId | .motd => true
  | _ => false

/-- The type of the message in a frame. -/
def OutboundFrame.type? (f : OutboundFrame) : Option MessageType :=
  if f.kind = .applicationMessage then
    match Payload.split f.payload with
    | .error _ => none
    | .ok (code, _) => MessageType.ofCode? code
  else none

/-- Whether a frame carries an answer. -/
def OutboundFrame.isAnswer (f : OutboundFrame) : Bool :=
  f.type?.any (·.isAnswer)

namespace Message

/-- Whether a message answers a request. -/
def isAnswer (m : Message) : Bool :=
  m.type.isAnswer

/-- The ticket in an answer. -/
def ticket? : Message → Option UInt32
  | .resultMessage m => some m.ticketId
  | .resultId m => some m.ticketId
  | .motd m => some m.ticketId
  | _ => none

/-- The code of an outcome. -/
def errorCode? : Message → Option UInt8
  | .resultMessage m => some m.errorCode
  | .resultId m => some m.errorCode
  | _ => none

/-- A message tells the sender of a request the outcome. `owned` is the room that the sender owns
afterwards. -/
structure Answers (m : Message) (r : Request) (outcome : Except Rejection Unit)
    (owned : Option Room) : Prop where
  ticket_eq : m.ticket? = some r.ticketId
  code_zero_iff : ∃ code, m.errorCode? = some code ∧ (code = 0 ↔ outcome = .ok ())
  resultId_iff : m.type = .resultId ↔ (∃ room, r = .openRoom room) ∧ outcome = .ok ()
  id_eq : ∀ d, m = .resultId d → ∃ room, owned = some room ∧ d.id = room.id.number

theorem type?_frame (m : Message) : m.frame.type? = some m.type := by
  have hkind : m.frame.kind = .applicationMessage := rfl
  unfold OutboundFrame.type?
  rw [if_pos hkind, show m.frame.payload = m.payload from rfl, Payload.split_payload]
  exact MessageType.ofCode?_code m.type

theorem isAnswer_frame (m : Message) : m.frame.isAnswer = m.isAnswer := by
  unfold OutboundFrame.isAnswer
  rw [type?_frame]
  rfl

/-- The answers among frames are the frames of the answers. -/
theorem filter_isAnswer_frames (ms : List Message) :
    ((ms.filter fits).map frame).filter OutboundFrame.isAnswer =
      ((ms.filter isAnswer).filter fits).map frame := by
  have hcomp : OutboundFrame.isAnswer ∘ frame = isAnswer := funext isAnswer_frame
  rw [List.filter_map, hcomp, List.filter_filter, List.filter_filter]
  exact congrArg _ (List.filter_congr fun m _ => Bool.and_comm ..)

end Message

/-! ## Answers among deeds -/

namespace Deed

/-- The answers that a deed sends to a connection. -/
def answers (c : ConnectionId) : Deed → List Message
  | .send conn m => if conn = c ∧ m.isAnswer then [m] else []
  | .exhibit recipients m => (Offer.messagesFor c (m.offers recipients)).filter Message.isAnswer
  | .call _ | .tell _ => []

theorem answers_offers (rules : Rules) (c : ConnectionId) (reg : Registry) (d : Deed) :
    (Offer.messagesFor c (d.offers rules reg)).filter Message.isAnswer = d.answers c := by
  cases d with
  | call k => rfl
  | send conn m =>
    show (Offer.messagesFor c [⟨conn, m⟩]).filter _ = if conn = c ∧ m.isAnswer then [m] else []
    rw [Offer.messagesFor_cons]
    by_cases hc : conn = c
    · cases hm : m.isAnswer with
      | true => simp [hc, hm, Offer.messagesFor]
      | false => simp [hc, hm, Offer.messagesFor]
    · simp [hc, Offer.messagesFor]
  | tell news =>
    refine List.filter_eq_nil_iff.mpr fun m hm => ?_
    rw [Offer.mem_messagesFor] at hm
    obtain ⟨m', hm', ho⟩ := List.mem_flatMap.mp hm
    obtain rfl : m = m' := Message.message_eq_of_mem_offers ho
    -- neither what happened nor the chat line that goes with it is an answer
    rcases List.mem_cons.mp hm' with rfl | hline
    · cases news <;> exact Bool.false_ne_true
    · obtain ⟨line, rfl⟩ := News.chat_of_mem_chatLine hline
      exact Bool.false_ne_true
  | exhibit recipients m => rfl

/-- The answers in a turn are those of its deeds. -/
theorem answers_offersAll (rules : Rules) (c : ConnectionId) (reg : Registry) (ds : List Deed) :
    (Offer.messagesFor c (offersAll rules reg ds)).filter Message.isAnswer =
      ds.flatMap (answers c) := by
  induction ds generalizing reg with
  | nil => rfl
  | cons d ds ih =>
    rw [offersAll, Offer.messagesFor_append, List.filter_append, answers_offers, ih,
      List.flatMap_cons]

section Sent

variable (c : ConnectionId)

@[simp] theorem answers_call (k : Registry.Call) : answers c (.call k) = [] := rfl

@[simp] theorem answers_tell (news : News) : answers c (.tell news) = [] := rfl

@[simp] theorem answers_tellRoom (ticketId : UInt32) (room : Room) :
    answers c (tellRoom ticketId room) = [] := rfl

theorem answers_send {m : Message} (h : m.isAnswer) : answers c (.send c m) = [m] :=
  if_pos ⟨rfl, h⟩

@[simp] theorem answers_ok (v : Visitor) (ticketId : UInt32) :
    answers v.conn (.ok v ticketId) = [.resultMessage (.ok ticketId)] :=
  answers_send v.conn rfl

/-- What is shown to players is no answer. -/
theorem answers_exhibit {m : Message} (h : m.isAnswer = false) (recipients : List ConnectionId) :
    answers c (.exhibit recipients m) = [] := by
  refine List.filter_eq_nil_iff.mpr fun m' hm' => ?_
  rw [Offer.mem_messagesFor] at hm'
  obtain rfl : m' = m := Message.message_eq_of_mem_offers hm'
  exact Bool.eq_false_iff.mp h

/-- What is shown is no answer. -/
theorem flatMap_answers_sends {α : Type} {f : α → Message} (h : ∀ a, (f a).isAnswer = false)
    (l : List α) : (l.map fun a => .send c (f a)).flatMap (answers c) = [] := by
  rw [List.flatMap_map, List.flatMap_eq_nil_iff]
  intro a _
  exact if_neg fun hsent => Bool.false_ne_true ((h a).symm.trans hsent.2)

end Sent

end Deed

/-! ## Answers to requests -/

namespace Session

open Deed

variable (rules : Rules) (v : Visitor) (reg : Registry)

/-- The answers to a request that is carried out. -/
def answers : Request → List Message
  | .chat _ => []
  | .motd r =>
    ((reg.account? v.conn).map fun a => .motd ⟨rules.config.motdText a.name, r.ticketId⟩).toList
  | .openRoom r => [.resultId (.ok (reg.lastRoomId + 1) r.ticketId)]
  | r => [.resultMessage (.ok r.ticketId)]

variable {rules v reg}

theorem roomClosed_answers (notice : Room → RemoveServer) :
    (roomClosed v reg notice).flatMap (Deed.answers v.conn) = [] := by
  unfold roomClosed
  split <;> rfl

theorem seatGivenUp_answers (ticketId : UInt32) :
    (seatGivenUp v reg ticketId).flatMap (Deed.answers v.conn) = [] := by
  unfold seatGivenUp
  split
  · rfl
  · split <;> rfl

theorem roomOffered_answers (room : Room) (ticketId : UInt32) :
    (roomOffered v room ticketId).flatMap (Deed.answers v.conn) =
      [.resultId (.ok room.id.number ticketId)] := by
  simp [roomOffered, answers_send v.conn (m := .resultId (.ok room.id.number ticketId)) rfl]

theorem gameStarted_answers (room : Room) (ticketId : UInt32) :
    (gameStarted v reg room ticketId).flatMap (Deed.answers v.conn) = [] := by
  simp [gameStarted, answers_exhibit v.conn (m := .gameServerData _) rfl]

/-- The deeds of a request that is carried out answer it. -/
theorem plan_answers {r : Request} {ds : List Deed} (h : plan rules v reg r = .ok ds) :
    ds.flatMap (Deed.answers v.conn) = answers rules v reg r := by
  have henter : ∀ {entry credentials patchlevel ticketId},
      enterPlan rules v reg entry credentials patchlevel ticketId = .ok ds →
      ds.flatMap (Deed.answers v.conn) = [.resultMessage (.ok ticketId)] := by
    intro entry credentials patchlevel ticketId h
    rcases enterPlan_ok h with rfl | ⟨-, rfl⟩ <;> simp
  have hsubscribe : ∀ {topic on rest}, subscribePlan v reg topic on rest = .ok ds →
      ∀ ms, (∀ reg, (rest reg).flatMap (Deed.answers v.conn) = ms) →
      ds.flatMap (Deed.answers v.conn) = ms := by
    intro topic on rest h ms hrest
    obtain ⟨a, -, rfl⟩ := subscribePlan_ok h
    exact hrest _
  cases r with simp only [plan] at h
  | chat r =>
    split at h
    · cases h
    · cases h
      rfl
  | motd r =>
    split at h
    · cases h
    · rename_i a ha
      cases h
      simp [answers, ha, answers_send v.conn (m := .motd _) rfl]
  | login r => exact henter h
  | newAccount r => exact henter h
  | watchChat r => exact hsubscribe h _ fun _ => by simp [answers, Request.ticketId]
  | unwatchChat r => exact hsubscribe h _ fun _ => by simp [answers, Request.ticketId]
  | watchLogins r =>
    refine hsubscribe h _ fun reg => ?_
    rw [List.flatMap_cons, answers_ok, flatMap_answers_sends v.conn fun _ => rfl]
    rfl
  | unwatchLogins r => exact hsubscribe h _ fun _ => by simp [answers, Request.ticketId]
  | watchRooms r =>
    refine hsubscribe h _ fun reg => ?_
    rw [List.flatMap_append, flatMap_answers_sends v.conn fun _ => rfl]
    simp [answers, Request.ticketId]
  | unwatchRooms r => exact hsubscribe h _ fun _ => by simp [answers, Request.ticketId]
  | openRoom r =>
    obtain ⟨a, -, -, rfl⟩ := openRoomPlan_ok h
    rw [List.flatMap_append, List.flatMap_append, roomClosed_answers, seatGivenUp_answers,
      roomOffered_answers]
    rfl
  | closeRoom r =>
    obtain ⟨room, -, -, rfl⟩ := closeRoomPlan_ok h
    rw [List.flatMap_append]
    split
    · rw [gameStarted_answers]
      simp [answers, Request.ticketId]
    · simp [answers, Request.ticketId]
  | changeRoom r =>
    obtain ⟨room, -, -, -, rfl⟩ := changeRoomPlan_ok h
    simp [answers, Request.ticketId]
  | joinRoom r =>
    obtain ⟨a, change, -, -, rfl⟩ := joinRoomPlan_ok h
    simp [answers, Request.ticketId, List.flatMap_map]
  | leaveRoom r =>
    obtain ⟨id, room, -, rfl⟩ := leaveRoomPlan_ok h
    simp [answers, Request.ticketId]

variable (rules v) in
/-- The messages that a session offers to its own client when it handles a frame. -/
def ownMessages (f : Frame) (reg : Registry) : List Message :=
  Offer.messagesFor v.conn (handle rules v f ⟨reg, []⟩).offers

section Request

variable {f : Frame} {r : Request} (hrequest : request? f = some r)

include hrequest

theorem filter_isAnswer_ownMessages :
    (ownMessages rules v f reg).filter Message.isAnswer =
      match plan rules v reg r with
      | .ok _ => answers rules v reg r
      | .error e => [.resultMessage (e.answer r.ticketId)] := by
  have hoffers : (handle rules v f ⟨reg, []⟩).offers =
      offersAll rules reg (deeds rules v reg r) := by
    rw [handle_eq_performAll, performAll_eq, List.nil_append, frameDeeds_of_request hrequest]
  unfold ownMessages
  rw [hoffers, answers_offersAll]
  unfold deeds
  cases hplan : plan rules v reg r with
  | ok ds => exact plan_answers hplan
  | error e => exact (List.flatMap_singleton ..).trans (answers_send v.conn rfl)

/-- A request that is neither a chat line nor about the message of the day has one answer, which
fits a frame and tells the outcome. -/
theorem exists_answer (hchat : ∀ q, r ≠ .chat q) (hmotd : ∀ q, r ≠ .motd q) :
    ∃ m, (ownMessages rules v f reg).filter Message.isAnswer = [m] ∧ m.fits ∧
      m.Answers r (Handler.run (carryOut rules v r) ⟨reg, []⟩).1
        ((handle rules v f ⟨reg, []⟩).registry.roomOf? v.conn) := by
  have hregistry : (handle rules v f ⟨reg, []⟩).registry = afterAll reg (deeds rules v reg r) := by
    rw [handle_eq_performAll, registry_performAll, frameDeeds_of_request hrequest]
  rw [filter_isAnswer_ownMessages hrequest, hregistry, run_carryOut]
  unfold deeds
  cases hplan : plan rules v reg r with
  | error e =>
    refine ⟨_, rfl, (plan_error_brief hplan).fits_answer r.ticketId, ?_⟩
    exact
      { ticket_eq := rfl
        code_zero_iff := ⟨e.code.value, rfl, iff_of_false e.code_ne_ok nofun⟩
        resultId_iff := iff_of_false nofun fun h => nomatch h.2
        id_eq := nofun }
  | ok ds =>
    by_cases hopen : ∃ q, r = .openRoom q
    · obtain ⟨q, rfl⟩ := hopen
      have hplan : openRoomPlan rules v reg q = .ok ds := hplan
      obtain ⟨room, hroom, hid⟩ := roomOf?_openRoomPlan hplan
      refine ⟨_, rfl, Message.fits_resultId_ok _ q.ticketId, ?_⟩
      exact
        { ticket_eq := rfl
          code_zero_iff := ⟨0, rfl, iff_of_true rfl rfl⟩
          resultId_iff := iff_of_true rfl ⟨⟨q, rfl⟩, rfl⟩
          id_eq := fun d hd => ⟨room, hroom, by cases hd; rw [hid]; rfl⟩ }
    · have hok : answers rules v reg r = [.resultMessage (.ok r.ticketId)] := by
        cases r with
        | chat q => exact absurd rfl (hchat q)
        | motd q => exact absurd rfl (hmotd q)
        | openRoom q => exact absurd ⟨q, rfl⟩ hopen
        | _ => rfl
      refine ⟨_, hok, Message.fits_ok r.ticketId, ?_⟩
      exact
        { ticket_eq := rfl
          code_zero_iff := ⟨0, rfl, iff_of_true rfl rfl⟩
          resultId_iff := iff_of_false nofun fun h => hopen h.1
          id_eq := nofun }

end Request

/-- A chat line has an answer only if its sender is not logged in. -/
theorem filter_isAnswer_chat {f : Frame} {q : ChatMessage}
    (hrequest : request? f = some (.chat q)) :
    (ownMessages rules v f reg).filter Message.isAnswer =
      if (reg.account? v.conn).isSome then []
      else [.resultMessage (Rejection.notLoggedIn.answer q.ticketId)] := by
  rw [filter_isAnswer_ownMessages hrequest]
  simp only [plan]
  cases reg.account? v.conn <;> rfl

end Session

/-! ## Answers in queues -/

namespace Lobby

/-- **Answers.** A session that has shaken hands handles a request, and its outbox has room for all
that the request offers it. If the request is neither a chat line nor about the message of the day,
then among the frames that are queued for the session there is one answer, with the ticket of the
request and the outcome. A chat line is answered if its sender is not logged in and not
otherwise. -/
theorem one_answer {rules : Rules} {l : Lobby} {conn : ConnectionId} {s : OpenSession} {line : Line}
    {f : Frame} {r : Request} (h : Reached rules l) (hs : l.sessions.get? conn = some s)
    (hgreeted : s.greeted) (hrequest : Session.request? f = some r)
    (hline : l.lines.get? conn = some line)
    (hroom : line.outbox.HasRoom (Session.ownMessages rules s.visitor f l.registry)) :
    let outcome := (Handler.run (Session.carryOut rules s.visitor r) ⟨l.registry, []⟩).1
    let l' := handle rules conn f l
    ∃ line' added, l'.lines.get? conn = some line' ∧
      line'.outbox.queue = line.outbox.queue ++ added ∧
      ((∀ q, r ≠ .chat q) → (∀ q, r ≠ .motd q) →
        ∃ m : Message, added.filter OutboundFrame.isAnswer = [m.frame] ∧
          m.Answers r outcome (l'.registry.roomOf? conn)) ∧
      ∀ q, r = .chat q →
        added.filter OutboundFrame.isAnswer =
          if (l.registry.account? conn).isSome then []
          else [(Message.resultMessage (Rejection.notLoggedIn.answer q.ticketId)).frame] := by
  obtain rfl := h.conn_visitor hs
  intro outcome l'
  let ms := Session.ownMessages rules s.visitor f l.registry
  have hl' : l' = l.takeTurn (Session.handle rules s.visitor f) :=
    handle_of_greeted rules hs hgreeted f
  have hanswers : ((ms.filter Message.fits).map Message.frame).filter OutboundFrame.isAnswer =
      ((ms.filter Message.isAnswer).filter Message.fits).map Message.frame :=
    Message.filter_isAnswer_frames ms
  refine ⟨line.pushAll ms, (ms.filter Message.fits).map Message.frame, ?_, hroom.queue_pushAll,
    fun hchat hmotd => ?_, ?_⟩
  · rw [hl', get?_lines_takeTurn, hline]
    rfl
  · obtain ⟨m, hm, hfits, htells⟩ := Session.exists_answer hrequest hchat hmotd
    rw [hanswers, hm, List.filter_cons_of_pos hfits, hl', registry_takeTurn]
    exact ⟨m, rfl, htells⟩
  · rintro q rfl
    have hbrief : Rejection.notLoggedIn.Brief := nofun
    rw [hanswers, Session.filter_isAnswer_chat hrequest]
    split
    · rfl
    · rw [List.filter_cons_of_pos (hbrief.fits_answer q.ticketId)]
      rfl

/-- A client that has logged in offers a room and is told its number. -/
theorem opened_room_answered :
    let l := handle .plain ⟨1⟩ (sentFrame (.requestLogin ⟨[0x41], [], [], 0, 11757, 1⟩)) firstVisit
    let room : AddGameServer := ⟨[0x52], [], 5479, 0, 0, [], 4, 0, 0, 0, false, [], false, [], 2⟩
    ∃ line line' added, l.lines.get? ⟨1⟩ = some line ∧
      (handle .plain ⟨1⟩ (sentFrame (.addGameServer room)) l).lines.get? ⟨1⟩ = some line' ∧
      line'.outbox.queue = line.outbox.queue ++ added ∧
      ∃ m : Message, added.filter OutboundFrame.isAnswer = [m.frame] ∧ m.ticket? = some 2 ∧
        m.type = .resultId := by
  intro l room
  have hs : l.sessions.get? ⟨1⟩ = some ⟨.numbered 1, true, .opened⟩ := by decide +kernel
  have hrequest : Session.request? (sentFrame (.addGameServer room)) = some (.openRoom room) := by
    decide +kernel
  have hserved : (Handler.run (Session.carryOut .plain (.numbered 1) (.openRoom room))
      ⟨l.registry, []⟩).1.isOk := by
    decide +kernel
  have hroom : (l.lines.get? ⟨1⟩).any fun line => line.outbox.HasRoom
      (Session.ownMessages .plain (.numbered 1) (sentFrame (.addGameServer room)) l.registry) := by
    decide +kernel
  obtain ⟨line, hline, htakes⟩ := (Option.any_eq_true ..).mp hroom
  obtain ⟨line', added, hline', hqueue, hanswer, -⟩ :=
    one_answer (reached_firstVisit.move (.ruled ..)) hs rfl hrequest hline
      (of_decide_eq_true htakes)
  obtain ⟨m, hm, htells⟩ := hanswer nofun nofun
  refine ⟨line, line', added, hline, hline', hqueue, m, hm, htells.ticket_eq,
    htells.resultId_iff.mpr ⟨⟨room, rfl⟩, ?_⟩⟩
  cases houtcome : (Handler.run (Session.carryOut .plain (.numbered 1) (.openRoom room))
      ⟨l.registry, []⟩).1 with
  | error e =>
    rw [houtcome] at hserved
    cases hserved
  | ok _ => rfl

end Lobby

end GameLobby
