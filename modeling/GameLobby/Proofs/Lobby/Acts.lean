import GameLobby.Proofs.Lobby.Reach
import GameLobby.Proofs.Lobby.Runs

/-!
# What an act changes

What comes in makes a session, feeds one, or changes a link (`Lobby.Takes`), and a session that is
attended to does one thing after the other (`Lobby.Serves`). A queue gets longer by notices and by
the answer to a handshake, and shorter by what a writer takes (`Acts.queued`), so what an outbox
accepts is all that is ever queued (`runs_queued`).
-/

namespace GameLobby

/-- The connection that something comes in for. -/
def Input.conn? : Input → Option ConnectionId
  | .connect v => some v.conn
  | .bytes conn _ | .ending conn _ | .stall conn | .resume conn | .sever conn => some conn
  | .idle => none

/-- The connection that a job is for. -/
def Job.conn : Job → ConnectionId
  | .attend conn | .write conn | .depart conn => conn

/-- The connection that an act is for. -/
def Act.conn? : Act → Option ConnectionId
  | .receive i => i.conn?
  | .perform job => some job.conn
  | .collect => none

/-- A client connects. -/
def Act.Connects (conn : ConnectionId) : Act → Prop
  | .receive (.connect v) => v.conn = conn
  | _ => False

instance (conn : ConnectionId) (a : Act) : Decidable (a.Connects conn) :=
  match a with
  | .receive (.connect v) => inferInstanceAs (Decidable (v.conn = conn))
  | .receive (.bytes ..) | .receive (.ending ..) | .receive (.stall _) | .receive (.resume _)
  | .receive (.sever _) | .receive .idle | .perform _ | .collect => .isFalse id

/-- A line is open and empty, and its writer has nothing to do. -/
structure Line.Idle (line : Line) : Prop where
  queue_nil : line.outbox.queue = []
  closed_eq : line.outbox.closed = false
  capacity_pos : 0 < line.outbox.capacity
  held_eq : line.writer.held = none
  released_eq : line.released = false

/-- What a client has sent, after an act. -/
def Act.feed (conn : ConnectionId) (a : Act) (s : Stream) : Stream :=
  match a with
  | .receive (.bytes c pieces) => if c = conn then { s with pieces := s.pieces ++ pieces } else s
  | .receive (.ending c e) => if c = conn then { s with ending := e } else s
  | _ => s

theorem Act.feed_of_conn?_ne {conn : ConnectionId} {a : Act} (h : a.conn? ≠ some conn)
    (s : Stream) : a.feed conn s = s := by
  unfold feed
  split
  · exact if_neg fun hc => h (congrArg some hc)
  · exact if_neg fun hc => h (congrArg some hc)
  · rfl

/-- Whatever is sent comes after what was sent. -/
theorem Act.bytes_feed (conn : ConnectionId) (a : Act) (s : Stream) :
    ∃ more, (a.feed conn s).bytes = s.bytes ++ more := by
  unfold feed
  split
  · split
    · rename_i pieces _
      exact ⟨pieces.flatten, List.flatten_append⟩
    · exact ⟨[], (List.append_nil _).symm⟩
  · split
    · exact ⟨[], (List.append_nil _).symm⟩
    · exact ⟨[], (List.append_nil _).symm⟩
  · exact ⟨[], (List.append_nil _).symm⟩

namespace Lobby

variable {rules : Rules} {l l' l'' : Lobby} {conn c : ConnectionId}

/-! ## What comes in -/

/-- What an input does before any job is done. -/
inductive Takes (rules : Rules) (l : Lobby) (i : Input) : Lobby → Prop where
  /-- A client gets a session and an idle line. -/
  | connect {v : Visitor} {line : Line} (hi : i = .connect v)
      (hfree : l.sessions.get? v.conn = none) (hidle : line.Idle) :
    Takes rules l i { l with
      sessions := l.sessions.insert v.conn ⟨v, false, .opened⟩
      lines := l.lines.insert v.conn line }
  /-- A session gets more input, and has to look at it. -/
  | feed {conn : ConnectionId} (hconn : i.conn? = some conn) :
    Takes rules l i (Lobby.feed conn ((Act.receive i).feed conn) l)
  /-- The connection behind a line changes, and its writer has to look. -/
  | link {conn : ConnectionId} {f : Writer → Writer} (hheld : ∀ w, (f w).held = w.held)
      (hfeed : ∀ c s, (Act.receive i).feed c s = s) : Takes rules l i (l.onLink conn f)
  /-- Nothing changes. -/
  | nothing (hfeed : ∀ c s, (Act.receive i).feed c s = s) : Takes rules l i l

theorem takes_of_receive {i : Input} (h : receive rules l i = some l') : Takes rules l i l' := by
  cases i with
  | connect v =>
    simp only [receive, connect] at h
    split at h
    · cases h
      exact .nothing fun _ _ => rfl
    · rename_i hfree
      obtain ⟨line, hline, rfl⟩ := Option.map_eq_some_iff.mp h
      refine .connect rfl (Option.not_isSome_iff_eq_none.mp hfree) ?_
      unfold Line.new? Outbox.new? at hline
      split at hline
      · rename_i hcapacity
        cases hline
        exact ⟨rfl, rfl, hcapacity.1, rfl, rfl⟩
      · cases hline
  | bytes conn pieces =>
    cases h
    have hfeed : (Act.receive (.bytes conn pieces)).feed conn =
        fun s => { s with pieces := s.pieces ++ pieces } := funext fun _ => if_pos rfl
    exact hfeed ▸ .feed rfl
  | ending conn e =>
    cases h
    have hfeed : (Act.receive (.ending conn e)).feed conn = fun s => { s with ending := e } :=
      funext fun _ => if_pos rfl
    exact hfeed ▸ .feed rfl
  | stall conn => cases h; exact .link (fun _ => rfl) fun _ _ => rfl
  | resume conn => cases h; exact .link (fun _ => rfl) fun _ _ => rfl
  | sever conn => cases h; exact .link (fun _ => rfl) fun _ _ => rfl
  | idle => cases h; exact .nothing fun _ _ => rfl

/-! ## A session at work -/

/-- A session takes frames out of its input, and this is left. -/
def leave (l : Lobby) (conn : ConnectionId) (rest : Stream) : Lobby :=
  { l with sessions := l.sessions.modify conn fun s => { s with input := rest } }

theorem get?_sessions_leave {s : OpenSession} (hs : l.sessions.get? conn = some s)
    (rest : Stream) :
    (l.leave conn rest).sessions.get? conn = some { s with input := rest } := by
  rw [leave, Table.get?_modify_self, hs]
  rfl

/-- What a session does when it is attended to, one thing after the other. -/
inductive Serves (rules : Rules) (conn : ConnectionId) (l : Lobby) : Lobby → Prop where
  | refl : Serves rules conn l l
  /-- It takes frames out of its input. -/
  | read {l' : Lobby} (h : Serves rules conn l l') (rest : Stream) :
    Serves rules conn l (l'.leave conn rest)
  /-- It takes a turn. -/
  | turn {l' : Lobby} (h : Serves rules conn l l') {s : OpenSession}
      (hs : l'.sessions.get? conn = some s) (f : Frame) :
    Serves rules conn l (l'.takeTurn (Event.turn rules (.frame s.visitor f)))
  /-- It answers the handshake. -/
  | answer {l' : Lobby} (h : Serves rules conn l l') {s : OpenSession}
      (hs : l'.sessions.get? conn = some s) (hnew : s.greeted = false) (payload : Bytes) :
    Serves rules conn l (l'.push conn ⟨.handshakeConnected, payload⟩).2
  | greet {l' : Lobby} (h : Serves rules conn l l') :
    Serves rules conn l
      { l' with sessions := l'.sessions.modify conn fun s => { s with greeted := true } }
  | finish {l' : Lobby} (h : Serves rules conn l l') (error : Option SessionError) :
    Serves rules conn l (l'.finish conn error)

/-- A session handles the frames that it has read, and sees the end of its input if it has come. -/
def handleUntil (rules : Rules) (conn : ConnectionId) (fs : List Frame) (stop : Option FrameError)
    (l : Lobby) : Lobby :=
  let l := fs.foldl (fun l f => handle rules conn f l) l
  match stop with
  | none => l
  | some e => onStop conn e l

/-- Then it ends if it was kicked. -/
def served (rules : Rules) (conn : ConnectionId) (fs : List Frame) (stop : Option FrameError)
    (l : Lobby) : Lobby :=
  let l := handleUntil rules conn fs stop l
  if (l.sessions.get? conn).any (·.greeted) && l.isKicked conn then l.finish conn none else l

namespace Serves

variable (h : Serves rules conn l l')

include h

theorem handle (f : Frame) : Serves rules conn l (Lobby.handle rules conn f l') := by
  unfold Lobby.handle
  split
  · exact h
  rename_i s hs
  split
  · exact h.turn hs f
  rename_i hnew
  unfold welcome
  split
  · exact h.finish _
  rename_i handshake _
  have hpush := h.answer hs (Bool.eq_false_iff.mpr hnew) handshake.reply.encode
  split
  · rename_i heq
    rw [heq] at hpush
    exact hpush.finish _
  · rename_i heq
    rw [heq] at hpush
    exact hpush.greet

theorem handleAll (fs : List Frame) :
    Serves rules conn l (fs.foldl (fun l f => Lobby.handle rules conn f l) l') := by
  induction fs generalizing l' with
  | nil => exact h
  | cons f fs ih => exact ih (h.handle f)

theorem onStop (e : FrameError) : Serves rules conn l (Lobby.onStop conn e l') := by
  unfold Lobby.onStop
  split
  · exact h
  · exact h.finish _

/-- A session handles the frames that it has read, sees the end of its input if it has come, and
ends if it was kicked. -/
theorem served (fs : List Frame) (stop : Option FrameError) :
    Serves rules conn l (Lobby.served rules conn fs stop l') := by
  have hstopped : Serves rules conn l (handleUntil rules conn fs stop l') := by
    cases stop with
    | none => exact h.handleAll fs
    | some e => exact (h.handleAll fs).onStop e
  unfold Lobby.served
  dsimp only
  split
  · exact hstopped.finish none
  · exact hstopped

end Serves

theorem attend_of_session (rules : Rules) {s : OpenSession} (hs : l.sessions.get? conn = some s)
    {fs : List Frame} {stop : Option FrameError} {rest : Stream}
    (hread : s.input.frames .clientToServer = (fs, stop, rest)) :
    attend rules l conn = served rules conn fs stop (l.leave conn rest) := by
  unfold attend serve
  rw [hs]
  dsimp only
  rw [hread]
  cases stop <;> rfl

theorem attend_of_none (rules : Rules) (hs : l.sessions.get? conn = none) :
    attend rules l conn = l := by
  unfold attend serve
  simp [hs]

theorem serves_attend (rules : Rules) (l : Lobby) (conn : ConnectionId) :
    Serves rules conn l (attend rules l conn) := by
  cases hs : l.sessions.get? conn with
  | none =>
    rw [attend_of_none rules hs]
    exact .refl
  | some s =>
    rw [attend_of_session rules hs rfl]
    exact (Serves.refl.read _).served _ _

/-! ## Handshakes done -/

/-- The session of a connection, if it has one, has shaken hands. -/
def Greeted (conn : ConnectionId) (l : Lobby) : Prop :=
  ∀ s, l.sessions.get? conn = some s → s.greeted

theorem Greeted.congr (h : l.Greeted c) (heq : l'.sessions.get? c = l.sessions.get? c) :
    l'.Greeted c :=
  fun s hs => h s (heq ▸ hs)

theorem Greeted.modify (h : l.Greeted c) (conn : ConnectionId) {f : OpenSession → OpenSession}
    (hf : ∀ s, s.greeted → (f s).greeted) :
    Greeted c { l with sessions := l.sessions.modify conn f } := by
  intro s hs
  rw [Table.get?_modify] at hs
  split at hs
  · obtain ⟨s', hs', rfl⟩ := Option.map_eq_some_iff.mp hs
    exact hf s' (h s' hs')
  · exact h s hs

theorem get?_sessions_finish (l : Lobby) (conn : ConnectionId) (error : Option SessionError)
    (c : ConnectionId) :
    (l.finish conn error).sessions.get? c = if c = conn then none else l.sessions.get? c := by
  unfold Lobby.finish
  split
  · rw [sessions_enqueue]
    exact Table.get?_erase ..
  · rename_i hnone
    split
    · rename_i hc
      subst hc
      exact Option.not_isSome_iff_eq_none.mp hnone
    · rfl

theorem Greeted.finish (h : l.Greeted c) (conn : ConnectionId) (error : Option SessionError) :
    (l.finish conn error).Greeted c := by
  intro s hs
  rw [get?_sessions_finish] at hs
  split at hs
  · cases hs
  · exact h s hs

theorem Serves.greeted (h : Serves rules conn l l') (hl : l.Greeted c) : l'.Greeted c := by
  induction h with
  | refl => exact hl
  | read _ rest ih => exact ih.modify conn fun _ hs => hs
  | turn => exact Greeted.congr ‹_› (by rw [sessions_takeTurn])
  | answer => exact Greeted.congr ‹_› (by rw [sessions_push])
  | greet _ ih => exact ih.modify conn fun _ _ => rfl
  | finish _ error ih => exact ih.finish conn error

/-! ## Queues -/

theorem queued_of_get? (h : l'.lines.get? c = l.lines.get? c) : l'.queued c = l.queued c := by
  unfold queued
  rw [h]

theorem queued_of_some {line : Line} (h : l.lines.get? c = some line) :
    l.queued c = line.outbox.queue := by
  unfold queued
  rw [h]

/-- A push adds its frame to the queue of its connection, or nothing. -/
theorem queued_push (l : Lobby) (conn : ConnectionId) (f : OutboundFrame) (c : ConnectionId) :
    (l.push conn f).2.queued c = l.queued c ∨
      c = conn ∧ f.payload.length ≤ FrameHeader.maxPayload ∧
        (l.push conn f).2.queued c = l.queued c ++ [f] := by
  by_cases hc : c = conn
  · cases hline : l.lines.get? c with
    | none =>
      refine .inl (queued_of_get? ?_)
      rw [get?_lines_push, if_pos hc, hline]
      rfl
    | some line =>
      have hafter : (l.push conn f).2.lines.get? c = some (line.push f).2 := by
        rw [get?_lines_push, if_pos hc, hline]
        rfl
      rw [queued_of_some hline, queued_of_some hafter]
      rcases line.queue_push f with ⟨e, -, hqueue⟩ | ⟨hok, hqueue⟩
      · exact .inl hqueue
      · refine .inr ⟨hc, Nat.not_lt.mp fun hlt => ?_, hqueue⟩
        unfold Line.push Outbox.push at hok
        rw [if_pos hlt] at hok
        cases hok
  · refine .inl (queued_of_get? ?_)
    rw [get?_lines_push, if_neg hc]

/-- What is delivered adds notices to queues, if it is what a lobby sends. -/
theorem queued_deliver {offers : List Offer} (hoffers : ∀ o ∈ offers, o.message.FromLobby)
    (l : Lobby) (c : ConnectionId) :
    ∃ new, (l.deliver offers).queued c = l.queued c ++ new ∧ ∀ f ∈ new, f.IsNotice := by
  induction offers generalizing l with
  | nil => exact ⟨[], (List.append_nil _).symm, nofun⟩
  | cons o offers ih =>
    obtain ⟨ho, hoffers⟩ := List.forall_mem_cons.mp hoffers
    obtain ⟨new, hqueue, hnew⟩ := ih hoffers (l.push o.recipient o.message.frame).2
    have hstep : l.deliver (o :: offers) =
        (l.push o.recipient o.message.frame).2.deliver offers := rfl
    rw [hstep, hqueue]
    rcases queued_push l o.recipient o.message.frame c with hsame | ⟨-, hle, hone⟩
    · exact ⟨new, by rw [hsame], hnew⟩
    · refine ⟨o.message.frame :: new, by rw [hone, List.append_assoc]; rfl,
        List.forall_mem_cons.mpr ⟨ho.notice (decide_eq_true hle), hnew⟩⟩

theorem queued_takeTurn (rules : Rules) (l : Lobby) (e : Event) (c : ConnectionId) :
    ∃ new, (l.takeTurn (e.turn rules)).queued c = l.queued c ++ new ∧ ∀ f ∈ new, f.IsNotice :=
  queued_deliver (fun _ ho => e.fromLobby_of_mem rules ho) _ c

theorem lines_finish (l : Lobby) (conn : ConnectionId) (error : Option SessionError) :
    (l.finish conn error).lines = l.lines := by
  unfold Lobby.finish
  split
  · exact lines_enqueue ..
  · rfl

theorem registry_finish (l : Lobby) (conn : ConnectionId) (error : Option SessionError) :
    (l.finish conn error).registry = l.registry :=
  (quiet_finish l conn error).registry_eq

/-- A session that is attended to adds to queues. It adds notices, and the answer to its own
handshake. -/
theorem Serves.queued (h : Serves rules conn l l') (c : ConnectionId) :
    ∃ new, l'.queued c = l.queued c ++ new ∧
      ((conn = c → l.Greeted c) → ∀ f ∈ new, f.IsNotice) := by
  induction h with
  | refl => exact ⟨[], (List.append_nil _).symm, fun _ => nofun⟩
  | read _ rest ih => exact ih
  | @turn l' _ s _ f ih =>
    obtain ⟨new, hqueue, hnew⟩ := ih
    obtain ⟨more, hmore, hnotices⟩ := queued_takeTurn rules l' (.frame s.visitor f) c
    refine ⟨new ++ more, by rw [hmore, hqueue, List.append_assoc], fun hg => ?_⟩
    exact List.forall_mem_append.mpr ⟨hnew hg, hnotices⟩
  | @answer l' h s hs hungreeted payload ih =>
    obtain ⟨new, hqueue, hnew⟩ := ih
    rcases queued_push l' conn ⟨.handshakeConnected, payload⟩ c with hsame | ⟨rfl, -, hone⟩
    · exact ⟨new, hsame.trans hqueue, hnew⟩
    · refine ⟨new ++ [⟨.handshakeConnected, payload⟩], by rw [hone, hqueue, List.append_assoc],
        fun hg => ?_⟩
      -- a session that had shaken hands when the work began does not answer a handshake
      have hgreeted := h.greeted (hg rfl) s hs
      rw [hungreeted] at hgreeted
      cases hgreeted
  | greet _ ih => exact ih
  | @finish l' _ error ih =>
    have hsame : (l'.finish conn error).queued c = l'.queued c :=
      queued_of_get? (by rw [lines_finish])
    rw [hsame]
    exact ih

/-- A line changes and its outbox stays. -/
theorem queued_modify (l : Lobby) (conn : ConnectionId) {f : Line → Line}
    (hf : ∀ line, (f line).outbox = line.outbox) (c : ConnectionId) :
    Lobby.queued { l with lines := l.lines.modify conn f } c = l.queued c := by
  unfold queued
  rw [Table.get?_modify]
  cases l.lines.get? c with
  | none => rw [Option.map_none, ite_self]
  | some line =>
    by_cases hc : c = conn
    · rw [if_pos hc, Option.map_some]
      exact congrArg Outbox.queue (hf line)
    · rw [if_neg hc]

theorem queued_enqueue (l : Lobby) (job : Job) (c : ConnectionId) :
    (l.enqueue job).queued c = l.queued c :=
  queued_of_get? (by rw [lines_enqueue])

theorem queued_collected (l : Lobby) (c : ConnectionId) : l.collected.queued c = l.queued c := by
  unfold collected queued
  rw [Table.get?_mapValues]
  cases l.lines.get? c <;> rfl

@[simp] theorem sessions_write (rules : Rules) (l : Lobby) (conn : ConnectionId) :
    (write rules l conn).sessions = l.sessions := by
  unfold write
  split
  · rfl
  · exact sessions_updateLine ..

theorem queued_write_suffix (rules : Rules) (l : Lobby) (conn c : ConnectionId) :
    (write rules l conn).queued c <:+ l.queued c := by
  unfold write
  cases hline : l.lines.get? conn with
  | none => exact List.suffix_refl _
  | some line =>
    dsimp only
    by_cases hc : c = conn
    · subst hc
      have hafter : (l.updateLine c line (line.write rules.checksum)).lines.get? c =
          some (line.write rules.checksum) := by
        rw [lines_updateLine, Table.get?_insert_self]
      rw [queued_of_some hline, queued_of_some hafter]
      exact queue_write_suffix rules.checksum line
    · have hsame : (l.updateLine conn line (line.write rules.checksum)).queued c = l.queued c :=
        queued_of_get? (by rw [lines_updateLine, Table.get?_insert_of_ne _ _ hc])
      exact hsame ▸ List.suffix_refl _

/-- **Queues.** An act adds to a queue, or takes from its front and adds nothing. It adds notices,
as long as it is not for a session that has yet to shake hands. -/
theorem Acts.queued {a : Act} (h : Acts rules l a l') (c : ConnectionId) :
    (∃ new, l'.queued c = l.queued c ++ new ∧
      ((a.conn? = some c → l.Greeted c) → ∀ f ∈ new, f.IsNotice)) ∨
      l'.queued c <:+ l.queued c := by
  have hsame : l'.queued c = l.queued c → l'.queued c <:+ l.queued c := fun heq =>
    heq ▸ List.suffix_refl _
  cases h with
  | receive hi =>
    cases takes_of_receive hi with
    | @connect v line _ _ hidle =>
      right
      by_cases hc : c = v.conn
      · subst hc
        rw [queued_of_some (Table.get?_insert_self ..), hidle.queue_nil]
        exact List.nil_suffix
      · exact hsame (queued_of_get? (Table.get?_insert_of_ne _ _ hc))
    | feed => exact .inr (hsame (queued_enqueue ..))
    | @link conn f =>
      have hmodify := queued_modify l conn (f := (·.onWriter f)) (fun _ => rfl) c
      exact .inr (hsame ((queued_enqueue ..).trans hmodify))
    | nothing => exact .inr (hsame rfl)
  | @perform gatekeeper job hjob =>
    let taken : Lobby := { l with agenda := l.agenda.erase job }
    cases job with
    | attend conn =>
      obtain ⟨new, hqueue, hnew⟩ := (serves_attend _ taken conn).queued c
      exact .inl ⟨new, hqueue, fun hg => hnew fun hc => hg (congrArg some hc)⟩
    | write conn => exact .inr (queued_write_suffix _ taken conn c)
    | depart conn =>
      obtain ⟨new, hqueue, hnew⟩ := queued_takeTurn _ taken (.departure conn) c
      refine .inl ⟨new, Eq.trans ?_ hqueue, fun _ => hnew⟩
      exact (queued_enqueue ..).trans (queued_modify _ conn (f := Line.release) (fun _ => rfl) c)
  | collect => exact .inr (hsame (queued_collected l c))

/-- What an act adds to a queue was accepted, and so was all that it adds. -/
theorem accepted_of_append {h : Happening} {new : List OutboundFrame}
    (heq : h.after.queued c = h.before.queued c ++ new) : h.accepted c = new := by
  unfold Happening.accepted
  rw [heq, List.drop_left]

theorem accepted_of_suffix {h : Happening} (hle : h.after.queued c <:+ h.before.queued c) :
    h.accepted c = [] :=
  List.drop_eq_nil_of_le hle.length_le

theorem accepted_snoc (c : ConnectionId) (hs : List Happening) (h : Happening) :
    accepted c (hs ++ [h]) = accepted c hs ++ h.accepted c := by
  unfold accepted
  rw [List.flatMap_append, List.flatMap_singleton]

/-- What waits in a queue are the last of the frames that waited before or were accepted since. -/
theorem runs_queued {hs : List Happening} (h : Runs rules l hs l') (c : ConnectionId) :
    l'.queued c <:+ l.queued c ++ accepted c hs := by
  induction h with
  | refl =>
    have hnone : l.queued c ++ accepted c [] = l.queued c := List.append_nil _
    exact ⟨[], hnone.symm⟩
  | @act hs l' l'' a _ ha ih =>
    rw [accepted_snoc, ← List.append_assoc]
    rcases ha.queued c with ⟨new, hqueue, -⟩ | hsuffix
    · have hnew : Happening.accepted c ⟨l', a, l''⟩ = new := accepted_of_append hqueue
      obtain ⟨gone, hgone⟩ := ih
      rw [hnew, hqueue]
      exact ⟨gone, by rw [← hgone, List.append_assoc]⟩
    · have hnone : Happening.accepted c ⟨l', a, l''⟩ = [] := accepted_of_suffix hsuffix
      rw [hnone, List.append_nil]
      exact hsuffix.trans ih

theorem Acts.greeted {a : Act} (h : Acts rules l a l') (ha : ¬ a.Connects c) (hl : l.Greeted c) :
    l'.Greeted c := by
  cases h with
  | receive hi =>
    cases takes_of_receive hi with
    | connect heq =>
      subst heq
      exact hl.congr (Table.get?_insert_of_ne _ _ (Ne.symm ha))
    | @feed conn _ =>
      refine Greeted.congr (hl.modify conn ?_) (congrArg (·.get? c) (sessions_enqueue ..))
      exact fun _ hs => hs
    | link => exact hl.congr (congrArg (·.get? c) (sessions_enqueue ..))
    | nothing => exact hl
  | @perform gatekeeper job hjob =>
    cases job with
    | attend conn =>
      have htaken : Greeted c { l with agenda := l.agenda.erase (.attend conn) } := hl
      exact (serves_attend _ _ conn).greeted htaken
    | write conn => exact hl.congr (congrArg (·.get? c) (sessions_write ..))
    | depart conn =>
      refine hl.congr ?_
      show (depart rules _ conn).sessions.get? c = _
      rw [depart, sessions_enqueue, sessions_takeTurn]
  | collect => exact hl

end Lobby

end GameLobby
