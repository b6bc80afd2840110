import GameLobby.Proofs.Lobby.History

/-!
# Moves

The work of a lobby in small moves. A session that reads some frames handles them one after the
other, so the lobby is in some state between any two of them. `Lobby.Reached` says which states
there are, and every state before or after a step is one of them (`Reached.step`). In each of them a
session has the visitor of its own connection (`Reached.conn_visitor`).
-/

namespace GameLobby

namespace Lobby

/-- One move of a lobby. -/
inductive Moves (rules : Rules) (l : Lobby) : Lobby → Prop where
  /-- Something comes in. -/
  | receive {i : Input} {l' : Lobby} (h : receive rules l i = some l') : Moves rules l l'
  /-- A job is taken off the agenda. -/
  | take {job : Job} {rest : List Job} (h : l.agenda = job :: rest) :
    Moves rules l { l with agenda := rest }
  /-- A session takes frames out of its input. -/
  | read (conn : ConnectionId) (rest : Stream) :
    Moves rules l
      { l with sessions := l.sessions.modify conn fun s => { s with input := rest } }
  /-- A session handles a frame, whatever the gatekeeper is inclined to. -/
  | handle (gatekeeper : Gatekeeper) (conn : ConnectionId) (f : Frame) :
    Moves rules l (handle (rules.under gatekeeper) conn f l)
  /-- A session ends. -/
  | finish (conn : ConnectionId) (error : Option SessionError) : Moves rules l (l.finish conn error)
  /-- A session that has ended departs. -/
  | depart (conn : ConnectionId) : Moves rules l (depart rules l conn)
  /-- A writer works. -/
  | write (conn : ConnectionId) : Moves rules l (write rules l conn)
  /-- Clients collect what they were sent. -/
  | collect : Moves rules l l.collected

/-- A frame handled under the gatekeeper of the rules. -/
theorem Moves.ruled {rules : Rules} (l : Lobby) (conn : ConnectionId) (f : Frame) :
    Moves rules l (Lobby.handle rules conn f l) :=
  .handle rules.gatekeeper conn f

/-- A state that a lobby gets into, perhaps in the middle of its work. -/
inductive Reached (rules : Rules) : Lobby → Prop where
  | opened : Reached rules opened
  | move {l l' : Lobby} (h : Reached rules l) (hm : Moves rules l l') : Reached rules l'

/-! ## Work is made of moves -/

namespace Reached

variable {rules : Rules} {l : Lobby} (h : Reached rules l)

include h

theorem handleAll (conn : ConnectionId) (fs : List Frame) :
    Reached rules (fs.foldl (fun l f => handle rules conn f l) l) := by
  induction fs generalizing l with
  | nil => exact h
  | cons f fs ih => exact ih (h.move (.ruled l conn f))

theorem onStop (conn : ConnectionId) (e : FrameError) :
    Reached rules (Lobby.onStop conn e l) := by
  unfold Lobby.onStop
  split
  · exact h
  · exact h.move (.finish conn _)

theorem serve (conn : ConnectionId) : Reached rules (Lobby.serve rules l conn) := by
  unfold Lobby.serve
  split
  · exact h
  · rename_i s _
    rcases s.input.frames .clientToServer with ⟨fs, stop, rest⟩
    have hread := (h.move (.read conn rest)).handleAll conn fs
    cases stop with
    | none => exact hread
    | some e => exact hread.onStop conn e

theorem perform (job : Job) : Reached rules (Lobby.perform rules l job) := by
  cases job with
  | attend conn =>
    have hserved := h.serve conn
    show Reached rules (attend rules l conn)
    unfold attend
    dsimp only
    split
    · exact hserved.move (.finish conn none)
    · exact hserved
  | write conn => exact h.move (.write conn)
  | depart conn => exact h.move (.depart conn)

theorem settleUpTo (fuel : Nat) : Reached rules (Lobby.settleUpTo rules fuel l) := by
  induction fuel generalizing l with
  | zero => exact h
  | succ fuel ih =>
    unfold Lobby.settleUpTo
    split
    · exact h
    · rename_i job rest hagenda
      exact ih ((h.move (.take hagenda)).perform job)

/-- A step leads from one of these states to another. -/
theorem step {l' : Lobby} {i : Input} {report : Report}
    (hstep : l.step rules i = some (report, l')) : Reached rules l' := by
  obtain ⟨received, hreceived, heq⟩ := Option.map_eq_some_iff.mp hstep
  obtain ⟨-, rfl⟩ := Prod.mk.inj heq
  have hsettled : Reached rules (settle rules received) :=
    (h.move (.receive hreceived)).settleUpTo received.workload
  exact hsettled.move .collect

/-- A lobby gets into its states by turns. -/
theorem passes : ∃ ms, Passes rules Lobby.opened ms l := by
  induction h with
  | opened => exact ⟨[], .refl⟩
  | @move l l' _ hm ih =>
    obtain ⟨ms, hpasses⟩ := ih
    cases hm with
    | receive hi => exact ⟨ms, hpasses.quiet (quiet_receive hi)⟩
    | take => exact ⟨ms, hpasses.quiet (.of_lines rfl rfl)⟩
    | read conn rest => exact ⟨ms, hpasses.quiet (.of_lines rfl rfl)⟩
    | handle gatekeeper conn f =>
      unfold Lobby.handle
      split
      · exact ⟨ms, hpasses⟩
      · rename_i s _
        split
        · exact ⟨_, hpasses.turn gatekeeper (.frame s.visitor f)⟩
        · exact ⟨ms, hpasses.quiet (quiet_welcome ..)⟩
    | finish conn error => exact ⟨ms, hpasses.quiet (quiet_finish ..)⟩
    | depart conn =>
      have hturn := hpasses.ruled (.departure conn)
      exact ⟨_, hturn.quiet ((quiet_modify _ conn Line.release fun _ => rfl).enqueue (.write conn))⟩
    | write conn => exact ⟨ms, hpasses.quiet (quiet_write ..)⟩
    | collect =>
      have hquiet : l.Quiet l.collected :=
        .of_mapValues (fun _ line => line.collect.2) rfl rfl fun _ _ => rfl
      exact ⟨ms, hpasses.quiet hquiet⟩

end Reached

/-! ## What pushes leave alone -/

@[simp] theorem sessions_enqueue (l : Lobby) (job : Job) :
    (l.enqueue job).sessions = l.sessions := by
  unfold enqueue
  split <;> rfl

@[simp] theorem sessions_updateLine (l : Lobby) (conn : ConnectionId) (before after : Line) :
    (l.updateLine conn before after).sessions = l.sessions := by
  unfold updateLine
  dsimp only
  split <;> simp

@[simp] theorem sessions_push (l : Lobby) (conn : ConnectionId) (f : OutboundFrame) :
    (l.push conn f).2.sessions = l.sessions := by
  unfold push
  split
  · rfl
  · split <;> simp

@[simp] theorem sessions_takeTurn (l : Lobby) (turn : Turn → Turn) :
    (l.takeTurn turn).sessions = l.sessions := by
  suffices h : ∀ (offers : List Offer) (l : Lobby), (l.deliver offers).sessions = l.sessions from
    h ..
  intro offers
  induction offers with
  | nil => exact fun l => rfl
  | cons o offers ih => exact fun l => (ih _).trans (sessions_push ..)

/-! ## Visitors -/

/-- Every session has the visitor of the connection that it is kept for. -/
structure Named (l : Lobby) : Prop where
  conn_visitor : ∀ conn s, l.sessions.get? conn = some s → s.visitor.conn = conn

namespace Named

variable {l l' : Lobby} (h : l.Named)

include h

theorem congr (heq : l'.sessions = l.sessions) : l'.Named :=
  ⟨fun conn s hs => h.conn_visitor conn s (heq ▸ hs)⟩

theorem modify (conn : ConnectionId) (f : OpenSession → OpenSession)
    (hf : ∀ s, (f s).visitor = s.visitor) :
    Named { l with sessions := l.sessions.modify conn f } := by
  refine ⟨fun c s hs => ?_⟩
  rw [Table.get?_modify] at hs
  split at hs
  · obtain ⟨s', hs', rfl⟩ := Option.map_eq_some_iff.mp hs
    exact (congrArg Visitor.conn (hf s')).trans (h.conn_visitor c s' hs')
  · exact h.conn_visitor c s hs

theorem finish (conn : ConnectionId) (error : Option SessionError) :
    (l.finish conn error).Named := by
  unfold Lobby.finish
  split
  · refine ⟨fun c s hs => ?_⟩
    rw [sessions_enqueue, Table.get?_erase] at hs
    split at hs
    · cases hs
    · exact h.conn_visitor c s hs
  · exact h

theorem welcome (rules : Rules) (conn : ConnectionId) (f : Frame) :
    (Lobby.welcome rules conn f l).Named := by
  unfold Lobby.welcome
  split
  · exact h.finish ..
  · rename_i handshake _
    have hpushed := h.congr (sessions_push l conn ⟨.handshakeConnected, handshake.reply.encode⟩)
    split
    · rename_i heq
      rw [heq] at hpushed
      exact hpushed.finish ..
    · rename_i heq
      rw [heq] at hpushed
      exact hpushed.modify conn _ fun _ => rfl

theorem handle (rules : Rules) (conn : ConnectionId) (f : Frame) :
    (Lobby.handle rules conn f l).Named := by
  unfold Lobby.handle
  split
  · exact h
  · split
    · exact h.congr (sessions_takeTurn ..)
    · exact h.welcome ..

theorem feed (conn : ConnectionId) (more : Stream → Stream) : (Lobby.feed conn more l).Named := by
  have hfed := h.modify conn (fun s => { s with input := more s.input }) fun _ => rfl
  exact hfed.congr (sessions_enqueue ..)

theorem receive {rules : Rules} {i : Input} (hi : Lobby.receive rules l i = some l') :
    l'.Named := by
  have hlink : ∀ conn f, (l.onLink conn f).Named := fun conn f => h.congr (sessions_enqueue ..)
  cases i with
  | connect v =>
    simp only [Lobby.receive, connect] at hi
    split at hi
    · cases hi
      exact h
    · obtain ⟨line, -, rfl⟩ := Option.map_eq_some_iff.mp hi
      refine ⟨fun c s hs => ?_⟩
      rw [Table.get?_insert] at hs
      split at hs
      · rename_i hc
        cases hs
        exact hc.symm
      · exact h.conn_visitor c s hs
  | bytes conn pieces => cases hi; exact h.feed ..
  | ending conn e => cases hi; exact h.feed ..
  | stall conn => cases hi; exact hlink ..
  | resume conn => cases hi; exact hlink ..
  | sever conn => cases hi; exact hlink ..
  | idle => cases hi; exact h

theorem move {rules : Rules} (hm : Moves rules l l') : l'.Named := by
  cases hm with
  | receive hi => exact h.receive hi
  | take => exact h.congr rfl
  | read conn rest => exact h.modify conn _ fun _ => rfl
  | handle gatekeeper conn f => exact h.handle (rules.under gatekeeper) conn f
  | finish conn error => exact h.finish conn error
  | depart conn => exact h.congr ((sessions_enqueue ..).trans (sessions_takeTurn ..))
  | write conn =>
    refine h.congr ?_
    unfold write
    split
    · rfl
    · exact sessions_updateLine ..
  | collect => exact h.congr rfl

end Named

/-- A session has the visitor of the connection that it is kept for. -/
theorem Reached.conn_visitor {rules : Rules} {l : Lobby} (h : Reached rules l)
    {conn : ConnectionId} {s : OpenSession} (hs : l.sessions.get? conn = some s) :
    s.visitor.conn = conn := by
  have hnamed : l.Named := by
    clear hs
    induction h with
    | opened => exact ⟨nofun⟩
    | move _ hm ih => exact ih.move hm
  exact hnamed.conn_visitor conn s hs

/-! ## First visitors -/

/-- The frame in which a client sends a message. -/
def sentFrame (m : Message) : Frame :=
  .carrying .clientToServer .applicationMessage m.payload .wordSum

/-- A lobby to which a client connects. -/
def visitedBy (l : Lobby) (v : Visitor) : Lobby :=
  (connect .plain v l).getD l

theorem quiet_visitedBy (l : Lobby) (v : Visitor) : l.Quiet (l.visitedBy v) := by
  unfold visitedBy
  cases h : connect .plain v l with
  | none => exact .refl l
  | some l' => exact @quiet_receive .plain l l' (.connect v) h

theorem Reached.visitedBy {l : Lobby} (h : Reached .plain l) (v : Visitor) :
    Reached .plain (l.visitedBy v) := by
  unfold Lobby.visitedBy
  cases hconnect : connect .plain v l with
  | none => exact h
  | some l' => exact h.move (.receive (i := .connect v) hconnect)

/-- A lobby whose first client has shaken hands. -/
def firstVisit : Lobby :=
  handle .plain ⟨1⟩
    (.carrying .clientToServer .handshakeConnect (Handshake.ofClient 1 "" "").encode .wordSum)
    (opened.visitedBy (.numbered 1))

theorem reached_firstVisit : Reached .plain firstVisit :=
  (Reached.opened.visitedBy (.numbered 1)).move (.ruled ..)

/-- A lobby to which three clients connect. -/
def gathered : Lobby :=
  ((opened.visitedBy (.numbered 1)).visitedBy (.numbered 2)).visitedBy (.numbered 3)

theorem passes_gathered (es : List Event) :
    Passes .plain opened (moments .plain gathered es) (takeTurns .plain gathered es) :=
  (((Passes.refl.quiet (quiet_visitedBy _ _)).quiet (quiet_visitedBy _ _)).quiet
    (quiet_visitedBy _ _)).trans (passes_takeTurns .plain gathered es)

end Lobby

end GameLobby
