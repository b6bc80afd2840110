import GameLobby.Proofs.Lobby.Deliveries
import GameLobby.Proofs.Lobby.Moves
import GameLobby.Proofs.Session.Outcome

/-!
# Rejections

A frame that a session reads after the handshake holds a request or it does not, and there are five
ways in which it does not (`Session.request?_eq_none_iff`). A frame without a request changes
nothing. A request that is rejected gets its answer and changes nothing else, whatever the request
and wherever it fails. Main statement: `rejected_changes_nothing`.
-/

namespace GameLobby

open Wire

/-! ## Frames without a request -/

/-- Whether clients may send messages of a type. -/
def MessageType.isRequest : MessageType → Bool
  | .resultMessage | .motd | .userLoggedIn | .userLoggedOut | .resultId | .chat
  | .gameServerData => false
  | _ => true

theorem Message.request?_eq_none_iff {m : Message} :
    m.request? = none ↔ m.type.isRequest = false := by
  cases m <;> simp [Message.request?, Message.type, MessageType.isRequest]

/-- A frame that holds no request. -/
inductive Frame.NoRequest (f : Frame) : Prop where
  /-- It is a sign of life or of another kind, and carries no message. -/
  | otherKind (hkind : f.header.kind? ≠ some .applicationMessage)
  /-- The envelope is cut short, or it starts with another number. -/
  | badEnvelope {e : PayloadError} (hsplit : Payload.split f.payload = .error e)
  /-- There is no type with the code in the envelope. -/
  | unknownType {code : UInt16} {body : Bytes} (hsplit : Payload.split f.payload = .ok (code, body))
    (htype : MessageType.ofCode? code = none)
  /-- Clients may not send messages of this type. -/
  | notForClients {code : UInt16} {body : Bytes} {t : MessageType}
    (hsplit : Payload.split f.payload = .ok (code, body))
    (htype : MessageType.ofCode? code = some t) (hrequest : t.isRequest = false)
  /-- The body cannot be read. -/
  | badBody {code : UInt16} {body : Bytes} {t : MessageType} {e : SchemaError}
    (hsplit : Payload.split f.payload = .ok (code, body))
    (htype : MessageType.ofCode? code = some t) (hbody : Received.ofBody t body = .error e)

/-- What is read from a body is of the type that it was read as. -/
theorem Received.type_ofBody {t : MessageType} {body : Bytes} {received : Received}
    (h : Received.ofBody t body = .ok received) : received.message.type = t := by
  unfold ofBody at h
  split at h
  · cases h
  split at h
  · cases h
  split at h
  · cases h
  · cases h
    exact Message.type_ofRecord ..

namespace Session

section Request

variable {f : Frame} (hkind : f.header.kind? = some .applicationMessage)

include hkind

theorem request?_of_split_error {e : PayloadError} (hsplit : Payload.split f.payload = .error e) :
    request? f = none := by
  unfold request? Received.ofPayload
  rw [if_pos hkind, hsplit]

variable {code : UInt16} {body : Bytes} (hsplit : Payload.split f.payload = .ok (code, body))

include hsplit

theorem request?_of_no_type (htype : MessageType.ofCode? code = none) : request? f = none := by
  unfold request? Received.ofPayload Payload.typeOf
  rw [if_pos hkind, hsplit]
  dsimp only
  rw [htype]

theorem request?_of_type {t : MessageType} (htype : MessageType.ofCode? code = some t) :
    request? f =
      match Received.ofBody t body with
      | .error _ => none
      | .ok received => received.message.request? := by
  unfold request? Received.ofPayload Payload.typeOf
  rw [if_pos hkind, hsplit]
  dsimp only
  rw [htype]
  dsimp only
  cases Received.ofBody t body <;> rfl

end Request

/-- A frame holds no request in one of five ways. -/
theorem request?_eq_none_iff {f : Frame} : request? f = none ↔ f.NoRequest := by
  by_cases hkind : f.header.kind? = some .applicationMessage
  · constructor
    · intro hnone
      rcases hsplit : Payload.split f.payload with e | ⟨code, body⟩
      · exact .badEnvelope hsplit
      cases htype : MessageType.ofCode? code with
      | none => exact .unknownType hsplit htype
      | some t =>
        rw [request?_of_type hkind hsplit htype] at hnone
        cases hbody : Received.ofBody t body with
        | error e => exact .badBody hsplit htype hbody
        | ok received =>
          rw [hbody] at hnone
          refine .notForClients hsplit htype ?_
          rw [← Received.type_ofBody hbody]
          exact Message.request?_eq_none_iff.mp hnone
    · intro h
      cases h with
      | otherKind hother => exact absurd hkind hother
      | badEnvelope hsplit => exact request?_of_split_error hkind hsplit
      | unknownType hsplit htype => exact request?_of_no_type hkind hsplit htype
      | @notForClients code body t hsplit htype hrequest =>
        rw [request?_of_type hkind hsplit htype]
        cases hbody : Received.ofBody t body with
        | error e => rfl
        | ok received =>
          rw [← Received.type_ofBody hbody] at hrequest
          exact Message.request?_eq_none_iff.mpr hrequest
      | badBody hsplit htype hbody => rw [request?_of_type hkind hsplit htype, hbody]
  · have hnone : request? f = none := if_neg hkind
    exact iff_of_true hnone (.otherKind hkind)

/-! ## Requests rejected -/

/-- A request that is rejected is answered, and that is all. -/
theorem handle_of_rejected {rules : Rules} {v : Visitor} {f : Frame} {r : Request} {e : Rejection}
    {t : Turn} (hrequest : request? f = some r)
    (hrejected : (Handler.run (carryOut rules v r) t).1 = .error e) :
    handle rules v f t =
      { t with offers := t.offers ++ [⟨v.conn, .resultMessage (e.answer r.ticketId)⟩] } := by
  unfold handle
  rw [hrequest]
  dsimp only
  unfold serve
  rw [run_carryOut] at hrejected ⊢
  cases hplan : plan rules v t.registry r with
  | ok ds =>
    rw [hplan] at hrejected
    exact nomatch hrejected
  | error e' =>
    rw [hplan] at hrejected
    cases hrejected
    rfl

end Session

namespace Lobby

/-- **Rejections.** A session that has shaken hands reads a frame. If the frame holds a request that
is rejected, then all that happens is that one answer is pushed to the session's own outbox, with
the code and the text of the rejection and the ticket of the request. If the frame holds no request,
nothing happens. -/
theorem rejected_changes_nothing {rules : Rules} {l : Lobby} {conn : ConnectionId} {s : OpenSession}
    (h : Reached rules l) (hs : l.sessions.get? conn = some s) (hgreeted : s.greeted) (f : Frame) :
    (∀ r e, Session.request? f = some r →
      (Handler.run (Session.carryOut rules s.visitor r) ⟨l.registry, []⟩).1 = .error e →
      let answer := Message.resultMessage ⟨e.code.value, Text.utf8 e.message, r.ticketId⟩
      let l' := handle rules conn f l
      e.code.value ≠ 0 ∧
        Session.handle rules s.visitor f ⟨l.registry, []⟩ = ⟨l.registry, [⟨conn, answer⟩]⟩ ∧
        l' = (l.push conn answer.frame).2 ∧ l'.registry = l.registry ∧ l'.sessions = l.sessions ∧
        ∀ c, c ≠ conn → l'.lines.get? c = l.lines.get? c) ∧
    (f.NoRequest → handle rules conn f l = l) := by
  rw [handle_of_greeted rules hs hgreeted]
  constructor
  · intro r e hrequest hrejected answer l'
    have hturn : Session.handle rules s.visitor f ⟨l.registry, []⟩ =
        ⟨l.registry, [⟨conn, answer⟩]⟩ := by
      rw [Session.handle_of_rejected hrequest hrejected, h.conn_visitor hs]
      rfl
    have hpushed : l' = (l.push conn answer.frame).2 := by
      show l.takeTurn _ = _
      unfold takeTurn
      rw [hturn]
      rfl
    refine ⟨e.code_ne_ok, hturn, hpushed, ?_, ?_, fun c hc => ?_⟩
    · rw [hpushed, registry_push]
    · rw [hpushed, sessions_push]
    · rw [hpushed, get?_lines_push, if_neg hc]
  · intro hno
    have hturn : Session.handle rules s.visitor f ⟨l.registry, []⟩ = ⟨l.registry, []⟩ := by
      unfold Session.handle
      rw [Session.request?_eq_none_iff.mpr hno]
    unfold takeTurn
    rw [hturn]
    rfl

/-- A client that has not logged in gets an answer to a chat line and none to a sign of life. -/
theorem chat_before_login_rejected :
    let chat := sentFrame (.chatMessage ⟨0, [0x41], 7⟩)
    let ping := Frame.carrying .clientToServer .ping [] .wordSum
    handle .plain ⟨1⟩ chat firstVisit =
        (firstVisit.push ⟨1⟩
          (Message.resultMessage ⟨0x03, Text.utf8 "not logged in", 7⟩).frame).2 ∧
      handle .plain ⟨1⟩ ping firstVisit = firstVisit := by
  intro chat ping
  have hs : firstVisit.sessions.get? ⟨1⟩ = some ⟨.numbered 1, true, .opened⟩ := by decide +kernel
  constructor
  · have hrequest : Session.request? chat = some (.chat ⟨0, [0x41], 7⟩) := by decide +kernel
    have hrejected : (Handler.run (Session.carryOut .plain (.numbered 1) (.chat ⟨0, [0x41], 7⟩))
        ⟨firstVisit.registry, []⟩).1 = .error .notLoggedIn := rfl
    obtain ⟨honly, -⟩ := rejected_changes_nothing reached_firstVisit hs rfl chat
    exact (honly _ _ hrequest hrejected).2.2.1
  · exact (rejected_changes_nothing reached_firstVisit hs rfl ping).2 (.otherKind (by decide))

end Lobby

end GameLobby
