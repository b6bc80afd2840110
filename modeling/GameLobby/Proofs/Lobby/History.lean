import GameLobby.Lobby
import GameLobby.Proofs.Frame.Stream
import GameLobby.Proofs.Session.Plan

/-!
# Histories

Sessions change the registry and queue messages in turns and not otherwise. `Lobby.Passes` tells
what became of a lobby by the turns that were taken meanwhile, each with the registry it found and
with what came of its pushes; between two turns the registry stays and queues get no messages.
Whatever a lobby does is such a history, of frames that were read from streams (`goes_step`), and a
history tells what was queued (`Passes.messages_suffix`).
-/

namespace GameLobby

/-- An occasion for a turn. -/
inductive Event where
  /-- A session that has shaken hands reads a frame. -/
  | frame (v : Visitor) (f : Frame)
  /-- A session that has ended departs. -/
  | departure (conn : ConnectionId)
  deriving DecidableEq

namespace Event

/-- The connection whose session takes the turn. -/
def conn : Event → ConnectionId
  | .frame v _ => v.conn
  | .departure conn => conn

/-- Its frame, if there is one, can come from a stream. -/
def Readable : Event → Prop
  | .frame _ f => f.Sound .clientToServer
  | .departure _ => True

instance (e : Event) : Decidable e.Readable :=
  match e with
  | .frame _ f => inferInstanceAs (Decidable (f.Sound .clientToServer))
  | .departure _ => inferInstanceAs (Decidable True)

/-- The turn that is taken. -/
def turn (rules : Rules) : Event → Turn → Turn
  | .frame v f => Session.handle rules v f
  | .departure conn => Session.depart rules conn

/-- What is done in the turn. -/
def deeds (rules : Rules) (reg : Registry) : Event → List Deed
  | .frame v f => Session.frameDeeds rules v reg f
  | .departure conn => Session.departureDeeds reg conn

theorem turn_eq_performAll (rules : Rules) (e : Event) (t : Turn) :
    e.turn rules t = Deed.performAll rules (e.deeds rules t.registry) t := by
  cases e with
  | frame v f => exact Session.handle_eq_performAll rules v f t
  | departure conn => exact Session.depart_eq_performAll rules conn t

theorem registry_turn (rules : Rules) (e : Event) (reg : Registry) :
    (e.turn rules ⟨reg, []⟩).registry = Deed.afterAll reg (e.deeds rules reg) := by
  rw [turn_eq_performAll, Deed.registry_performAll]

end Event

/-- A turn that was taken: the registry that it found, its occasion, the registry that it left, and
each message it pushed with whether the outbox took it in. -/
structure Moment where
  registry : Registry
  event : Event
  after : Registry
  pushed : List (Offer × Bool)
  deriving DecidableEq

/-- The frames that a turn queued for a connection. -/
def Moment.frames (conn : ConnectionId) (m : Moment) : List OutboundFrame :=
  (m.pushed.filter fun p => p.1.recipient = conn ∧ p.2).map (·.1.message.frame)

/-- A push that is refused leaves the queue as it is. -/
theorem Line.queue_push (line : Line) (f : OutboundFrame) :
    (∃ e, (line.push f).1 = .error e ∧ (line.push f).2.outbox.queue = line.outbox.queue) ∨
      (line.push f).1 = .ok () ∧
        (line.push f).2.outbox.queue = line.outbox.queue ++ [f] := by
  unfold Line.push Outbox.push
  split
  · exact .inl ⟨_, rfl, rfl⟩
  · split
    · exact .inl ⟨_, rfl, rfl⟩
    · split
      · exact .inl ⟨_, rfl, rfl⟩
      · exact .inr ⟨rfl, rfl⟩

namespace Lobby

/-! ## What comes of pushes -/

/-- Offers pushed in order, and whether each was taken in. -/
def outcomes : Lobby → List Offer → List (Offer × Bool)
  | _, [] => []
  | l, o :: offers =>
    (o, (l.push o.recipient o.message.frame).1.isOk) ::
      outcomes (l.push o.recipient o.message.frame).2 offers

/-- The messages that wait in the queue of a connection. -/
def messages (l : Lobby) (conn : ConnectionId) : List OutboundFrame :=
  match l.lines.get? conn with
  | none => []
  | some line => line.outbox.queue.filter (·.kind = .applicationMessage)

@[simp] theorem registry_enqueue (l : Lobby) (job : Job) :
    (l.enqueue job).registry = l.registry := by
  unfold enqueue
  split <;> rfl

@[simp] theorem lines_enqueue (l : Lobby) (job : Job) : (l.enqueue job).lines = l.lines := by
  unfold enqueue
  split <;> rfl

@[simp] theorem registry_updateLine (l : Lobby) (conn : ConnectionId) (before after : Line) :
    (l.updateLine conn before after).registry = l.registry := by
  unfold updateLine
  dsimp only
  split <;> simp

@[simp] theorem lines_updateLine (l : Lobby) (conn : ConnectionId) (before after : Line) :
    (l.updateLine conn before after).lines = l.lines.insert conn after := by
  unfold updateLine
  dsimp only
  split <;> simp

@[simp] theorem registry_push (l : Lobby) (conn : ConnectionId) (f : OutboundFrame) :
    (l.push conn f).2.registry = l.registry := by
  unfold push
  split
  · rfl
  · split <;> simp

theorem messages_of_lines {l l' : Lobby} (h : l'.lines = l.lines) (conn : ConnectionId) :
    l'.messages conn = l.messages conn := by
  unfold messages
  rw [h]

theorem messages_insert {l l' : Lobby} {conn : ConnectionId} {line : Line}
    (h : l'.lines = l.lines.insert conn line) (c : ConnectionId) :
    l'.messages c =
      if c = conn then line.outbox.queue.filter (·.kind = .applicationMessage)
      else l.messages c := by
  unfold messages
  rw [h, Table.get?_insert]
  by_cases hc : c = conn
  · simp [hc]
  · simp [hc]

/-- A frame that is taken in comes last in its queue, and no other queue changes. -/
theorem messages_push (l : Lobby) (conn : ConnectionId) (f : OutboundFrame) (c : ConnectionId) :
    (l.push conn f).2.messages c =
      l.messages c ++
        if c = conn ∧ (l.push conn f).1.isOk then [f].filter (·.kind = .applicationMessage)
        else [] := by
  unfold push
  cases hline : l.lines.get? conn with
  | none => simp [Except.isOk, Except.toBool]
  | some line =>
    have hmine : l.messages conn = line.outbox.queue.filter (·.kind = .applicationMessage) := by
      unfold messages
      rw [hline]
    have hcases := line.queue_push f
    rcases hpush : line.push f with ⟨answer, line'⟩
    rw [hpush] at hcases
    rcases hcases with ⟨e, rfl, hqueue⟩ | ⟨rfl, hqueue⟩
    · simp only [hpush] at hqueue ⊢
      rw [messages_insert (lines_updateLine l conn line line')]
      by_cases hc : c = conn
      · simp [hc, hmine, hqueue, Except.isOk, Except.toBool]
      · simp [hc]
    · simp only [hpush] at hqueue ⊢
      rw [messages_of_lines (lines_enqueue _ _),
        messages_insert (lines_updateLine l conn line line')]
      by_cases hc : c = conn
      · simp [hc, hmine, hqueue, Except.isOk, Except.toBool]
      · simp [hc]

@[simp] theorem registry_deliver (l : Lobby) (offers : List Offer) :
    (l.deliver offers).registry = l.registry := by
  unfold deliver
  induction offers generalizing l with
  | nil => rfl
  | cons o offers ih => rw [List.foldl_cons, ih, registry_push]

@[simp] theorem registry_takeTurn (l : Lobby) (turn : Turn → Turn) :
    (l.takeTurn turn).registry = (turn ⟨l.registry, []⟩).registry :=
  registry_deliver ..

/-- What a queue gets when offers are delivered is what it took in of them. -/
theorem messages_deliver (l : Lobby) (offers : List Offer) (conn : ConnectionId) :
    (l.deliver offers).messages conn =
      l.messages conn ++
        ((l.outcomes offers).filter fun p => p.1.recipient = conn ∧ p.2).map
          (·.1.message.frame) := by
  induction offers generalizing l with
  | nil => simp [deliver, outcomes]
  | cons o offers ih =>
    have hstep : l.deliver (o :: offers) =
        (l.push o.recipient o.message.frame).2.deliver offers := rfl
    rw [hstep, ih, messages_push, outcomes, List.append_assoc]
    congr 1
    by_cases hc : conn = o.recipient
    · cases (l.push o.recipient o.message.frame).1.isOk with
      | true => simp [hc, Message.frame]
      | false => simp [hc]
    · simp [hc, Ne.symm hc]

theorem map_fst_outcomes (l : Lobby) (offers : List Offer) :
    (l.outcomes offers).map Prod.fst = offers := by
  induction offers generalizing l with
  | nil => rfl
  | cons o offers ih => rw [outcomes, List.map_cons, ih]

/-! ## Histories -/

/-- The registry stays, and queues get no messages. -/
structure Quiet (l l' : Lobby) : Prop where
  registry_eq : l'.registry = l.registry
  messages_suffix : ∀ conn, l'.messages conn <:+ l.messages conn

/-- What is remembered of the turn that a lobby takes on an occasion. -/
def moment (rules : Rules) (l : Lobby) (e : Event) : Moment where
  registry := l.registry
  event := e
  after := (e.turn rules ⟨l.registry, []⟩).registry
  pushed :=
    outcomes { l with registry := (e.turn rules ⟨l.registry, []⟩).registry }
      (e.turn rules ⟨l.registry, []⟩).offers

theorem messages_takeTurn (rules : Rules) (l : Lobby) (e : Event) (conn : ConnectionId) :
    (l.takeTurn (e.turn rules)).messages conn =
      l.messages conn ++ (l.moment rules e).frames conn :=
  messages_deliver ..

theorem offers_moment (rules : Rules) (l : Lobby) (e : Event) :
    (l.moment rules e).pushed.map Prod.fst =
      Deed.offersAll rules l.registry (e.deeds rules l.registry) := by
  have hturn : (l.moment rules e).pushed.map Prod.fst = (e.turn rules ⟨l.registry, []⟩).offers :=
    map_fst_outcomes ..
  rw [hturn, Event.turn_eq_performAll, Deed.performAll_eq, List.nil_append]

/-- From the one lobby to the other these turns are taken, and nothing else happens to the registry
or puts messages into queues. The gatekeeper may be of another mind in each turn: what it says need
not depend on the credentials alone. -/
inductive Passes (rules : Rules) (l : Lobby) : List Moment → Lobby → Prop where
  | refl : Passes rules l [] l
  | quiet {ms : List Moment} {l' l'' : Lobby} (h : Passes rules l ms l') (hq : l'.Quiet l'') :
    Passes rules l ms l''
  | turn {ms : List Moment} {l' : Lobby} (h : Passes rules l ms l') (gatekeeper : Gatekeeper)
      (e : Event) :
    Passes rules l (ms ++ [l'.moment (rules.under gatekeeper) e])
      (l'.takeTurn (e.turn (rules.under gatekeeper)))

/-- A turn under the gatekeeper of the rules. -/
theorem Passes.ruled {rules : Rules} {l l' : Lobby} {ms : List Moment} (h : Passes rules l ms l')
    (e : Event) : Passes rules l (ms ++ [l'.moment rules e]) (l'.takeTurn (e.turn rules)) :=
  h.turn rules.gatekeeper e

theorem Passes.trans {rules : Rules} {l l' l'' : Lobby} {ms ms' : List Moment}
    (h : Passes rules l ms l') (h' : Passes rules l' ms' l'') :
    Passes rules l (ms ++ ms') l'' := by
  induction h' with
  | refl => rwa [List.append_nil]
  | quiet _ hq ih => exact ih.quiet hq
  | turn _ gatekeeper e ih =>
    rw [← List.append_assoc]
    exact ih.turn gatekeeper e

/-- What was done in a turn of a history was done under some gatekeeper. -/
theorem Passes.exists_gatekeeper {rules : Rules} {l l' : Lobby} {ms : List Moment}
    (h : Passes rules l ms l') {m : Moment} (hm : m ∈ ms) :
    ∃ gatekeeper, m.after = (m.event.turn (rules.under gatekeeper) ⟨m.registry, []⟩).registry := by
  induction h with
  | refl => cases hm
  | quiet _ _ ih => exact ih hm
  | turn _ gatekeeper e ih =>
    rcases List.mem_append.mp hm with hm | hm
    · exact ih hm
    · rw [List.mem_singleton.mp hm]
      exact ⟨gatekeeper, rfl⟩

/-- What waits in a queue are the last of the frames that waited before or were queued since. -/
theorem Passes.messages_suffix {rules : Rules} {l l' : Lobby} {ms : List Moment}
    (h : Passes rules l ms l') (conn : ConnectionId) :
    l'.messages conn <:+ l.messages conn ++ ms.flatMap (·.frames conn) := by
  induction h with
  | refl => exact ⟨[], (List.append_nil _).symm⟩
  | quiet _ hq ih => exact (hq.messages_suffix conn).trans ih
  | turn _ gatekeeper e ih =>
    obtain ⟨gone, hgone⟩ := ih
    refine ⟨gone, ?_⟩
    rw [messages_takeTurn, ← List.append_assoc, hgone, List.flatMap_append, List.flatMap_singleton,
      List.append_assoc]

/-- What every turn keeps holds after a history, if it held before. -/
theorem Passes.preserves {rules : Rules} {l l' : Lobby} {ms : List Moment} {I : Registry → Prop}
    {P : Moment → Prop} (h : Passes rules l ms l') (hP : ∀ m ∈ ms, P m) (hI : I l.registry)
    (hturn : ∀ (gatekeeper : Gatekeeper) (l : Lobby) (e : Event),
      P (l.moment (rules.under gatekeeper) e) → I l.registry →
      I (e.turn (rules.under gatekeeper) ⟨l.registry, []⟩).registry) : I l'.registry := by
  induction h with
  | refl => exact hI
  | quiet _ hq ih => exact hq.registry_eq ▸ ih hP
  | turn _ gatekeeper e ih =>
    rw [registry_takeTurn]
    exact hturn gatekeeper _ e (hP _ (by simp)) (ih fun m hm => hP m (by simp [hm]))

/-- Turns taken one after the other. -/
def takeTurns (rules : Rules) (l : Lobby) (es : List Event) : Lobby :=
  es.foldl (fun l e => l.takeTurn (e.turn rules)) l

/-- What is remembered of turns taken one after the other. -/
def moments (rules : Rules) : Lobby → List Event → List Moment
  | _, [] => []
  | l, e :: es => l.moment rules e :: moments rules (l.takeTurn (e.turn rules)) es

theorem passes_takeTurns (rules : Rules) (l : Lobby) (es : List Event) :
    Passes rules l (moments rules l es) (takeTurns rules l es) := by
  induction es generalizing l with
  | nil => exact .refl
  | cons e es ih => exact (Passes.ruled .refl e).trans (ih _)

namespace Quiet

theorem refl (l : Lobby) : l.Quiet l :=
  ⟨rfl, fun _ => List.suffix_refl _⟩

theorem trans {l l' l'' : Lobby} (h : l.Quiet l') (h' : l'.Quiet l'') : l.Quiet l'' where
  registry_eq := h'.registry_eq.trans h.registry_eq
  messages_suffix conn := (h'.messages_suffix conn).trans (h.messages_suffix conn)

theorem of_lines {l l' : Lobby} (hreg : l'.registry = l.registry) (hlines : l'.lines = l.lines) :
    l.Quiet l' :=
  ⟨hreg, fun conn => messages_of_lines hlines conn ▸ List.suffix_refl _⟩

theorem enqueue {l l' : Lobby} (h : l.Quiet l') (job : Job) : l.Quiet (l'.enqueue job) :=
  h.trans (of_lines (registry_enqueue l' job) (lines_enqueue l' job))

/-- A line changes and its queue at most gets shorter. -/
theorem of_insert {l l' : Lobby} {conn : ConnectionId} {line : Line}
    (hreg : l'.registry = l.registry) (hlines : l'.lines = l.lines.insert conn line)
    (hqueue : line.outbox.queue.filter (·.kind = .applicationMessage) <:+ l.messages conn) :
    l.Quiet l' := by
  refine ⟨hreg, fun c => ?_⟩
  rw [messages_insert hlines]
  split
  · rename_i hc
    exact hc ▸ hqueue
  · exact List.suffix_refl _

/-- Lines change and their outboxes stay. -/
theorem of_mapValues {l l' : Lobby} (f : ConnectionId → Line → Line)
    (hreg : l'.registry = l.registry) (hlines : l'.lines = l.lines.mapValues f)
    (hbox : ∀ conn line, (f conn line).outbox = line.outbox) : l.Quiet l' := by
  refine ⟨hreg, fun conn => ?_⟩
  unfold messages
  rw [hlines, Table.get?_mapValues]
  cases l.lines.get? conn with
  | none => exact List.suffix_refl _
  | some line =>
    dsimp only [Option.map_some]
    exact hbox conn line ▸ List.suffix_refl _

end Quiet

/-- A line changes and its outbox stays. -/
theorem quiet_modify (l : Lobby) (conn : ConnectionId) (f : Line → Line)
    (hbox : ∀ line, (f line).outbox = line.outbox) :
    l.Quiet { l with lines := l.lines.modify conn f } := by
  refine .of_mapValues (fun c line => if c = conn then f line else line) rfl rfl fun c line => ?_
  split
  · exact hbox line
  · rfl

theorem quiet_finish (l : Lobby) (conn : ConnectionId) (error : Option SessionError) :
    l.Quiet (l.finish conn error) := by
  unfold finish
  split
  · have herased : l.Quiet { l with
        sessions := l.sessions.erase conn
        ended := l.ended ++ [⟨conn, error⟩] } := .of_lines rfl rfl
    exact herased.enqueue (.depart conn)
  · exact .refl l

/-- The answer to a handshake is no message. -/
theorem quiet_greeting (l : Lobby) (conn : ConnectionId) (payload : Bytes) :
    l.Quiet (l.push conn ⟨.handshakeConnected, payload⟩).2 := by
  refine ⟨registry_push .., fun c => ?_⟩
  rw [messages_push]
  split
  · simp
  · simp

theorem quiet_welcome (rules : Rules) (l : Lobby) (conn : ConnectionId) (f : Frame) :
    l.Quiet (welcome rules conn f l) := by
  unfold welcome
  split
  · exact quiet_finish ..
  · rename_i handshake _
    have hpush := quiet_greeting l conn handshake.reply.encode
    split
    · rename_i heq
      rw [heq] at hpush
      exact hpush.trans (quiet_finish ..)
    · rename_i heq
      rw [heq] at hpush
      exact hpush.trans (.of_lines rfl rfl)

/-- A writer takes frames off the front of a queue. -/
theorem queue_write_suffix (checksum : Checksum) (line : Line) :
    (line.write checksum).outbox.queue <:+ line.outbox.queue := by
  have hnil : [] <:+ line.outbox.queue := List.nil_suffix
  show (line.writer.run checksum line.released line.outbox).1.queue <:+ _
  unfold Writer.run
  split
  · exact List.suffix_refl _
  · split
    · split
      · exact hnil
      · exact List.suffix_refl _
    · split <;> exact hnil
    · rename_i u rest _ hpending
      show rest.map (·.frame) <:+ line.outbox.queue
      have hframes := line.writer.map_frame_pending line.outbox
      rw [hpending, List.map_cons, Writer.inHand] at hframes
      cases hheld : line.writer.held with
      | none =>
        rw [hheld] at hframes
        have hqueue : u.frame :: rest.map (·.frame) = line.outbox.queue := hframes
        rw [← hqueue]
        exact List.suffix_cons ..
      | some g =>
        rw [hheld] at hframes
        have hqueue : u.frame :: rest.map (·.frame) = g.frame :: line.outbox.queue := hframes
        exact (List.cons.inj hqueue).2 ▸ List.suffix_refl _
    · exact hnil

theorem quiet_write (rules : Rules) (l : Lobby) (conn : ConnectionId) :
    l.Quiet (write rules l conn) := by
  unfold write
  cases hline : l.lines.get? conn with
  | none => exact .refl l
  | some line =>
    refine .of_insert (registry_updateLine ..) (lines_updateLine ..) ?_
    unfold messages
    rw [hline]
    exact (queue_write_suffix rules.checksum line).filter _

/-! ## What a lobby does is a history -/

/-- Some turns lead from the one lobby to the other, each for a frame that can come from a stream or
for a departure. -/
def Goes (rules : Rules) (l l' : Lobby) : Prop :=
  ∃ ms, Passes rules l ms l' ∧ ∀ m ∈ ms, m.event.Readable

namespace Goes

variable {rules : Rules} {l l' l'' : Lobby}

theorem refl (l : Lobby) : Goes rules l l :=
  ⟨[], .refl, nofun⟩

theorem trans (h : Goes rules l l') (h' : Goes rules l' l'') : Goes rules l l'' := by
  obtain ⟨ms, h, hread⟩ := h
  obtain ⟨ms', h', hread'⟩ := h'
  exact ⟨ms ++ ms', h.trans h', List.forall_mem_append.mpr ⟨hread, hread'⟩⟩

theorem of_quiet (h : l.Quiet l') : Goes rules l l' :=
  ⟨[], .quiet .refl h, nofun⟩

theorem of_turn (l : Lobby) {e : Event} (hread : e.Readable) :
    Goes rules l (l.takeTurn (e.turn rules)) :=
  ⟨[l.moment rules e], .ruled .refl e, List.forall_mem_singleton.mpr hread⟩

theorem foldl {α : Type} {f : Lobby → α → Lobby} (l : Lobby) (as : List α)
    (hf : ∀ l, ∀ a ∈ as, Goes rules l (f l a)) : Goes rules l (as.foldl f l) := by
  induction as generalizing l with
  | nil => exact .refl l
  | cons a as ih =>
    have hrest := ih (f l a) fun l b hb => hf l b (List.mem_cons_of_mem a hb)
    exact (hf l a List.mem_cons_self).trans hrest

end Goes

section Work

variable (rules : Rules) (l : Lobby)

theorem goes_handle (conn : ConnectionId) {f : Frame} (hf : f.Sound .clientToServer) :
    Goes rules l (handle rules conn f l) := by
  unfold handle
  split
  · exact .refl l
  · rename_i s _
    split
    · exact @Goes.of_turn rules l (.frame s.visitor f) hf
    · exact .of_quiet (quiet_welcome ..)

theorem goes_serve (conn : ConnectionId) : Goes rules l (serve rules l conn) := by
  unfold serve
  split
  · exact .refl l
  · rename_i s _
    have hsound : ∀ f ∈ (s.input.frames .clientToServer).1, f.Sound .clientToServer :=
      fun f hf => Stream.sound_of_mem_framesUpTo hf
    generalize s.input.frames .clientToServer = input at hsound ⊢
    obtain ⟨frames, stop, rest⟩ := input
    have hread : Goes rules l
        { l with sessions := l.sessions.modify conn fun s => { s with input := rest } } :=
      .of_quiet (.of_lines rfl rfl)
    have hframes := hread.trans
      (.foldl _ frames fun l f hf => goes_handle rules l conn (hsound f hf))
    cases stop with
    | none => exact hframes
    | some e =>
      refine hframes.trans ?_
      show Goes rules _ (onStop conn e _)
      unfold onStop
      split
      · exact .refl _
      · exact .of_quiet (quiet_finish ..)

theorem goes_perform (job : Job) : Goes rules l (perform rules l job) := by
  cases job with
  | attend conn =>
    refine (goes_serve rules l conn).trans ?_
    show Goes rules _ (attend rules l conn)
    unfold attend
    dsimp only
    split
    · exact .of_quiet (quiet_finish ..)
    · exact .refl _
  | write conn => exact .of_quiet (quiet_write ..)
  | depart conn =>
    refine (@Goes.of_turn rules l (.departure conn) trivial).trans (.of_quiet ?_)
    exact (quiet_modify _ conn Line.release fun _ => rfl).enqueue (.write conn)

theorem goes_settleUpTo (fuel : Nat) : Goes rules l (settleUpTo rules fuel l) := by
  induction fuel generalizing l with
  | zero => exact .refl l
  | succ fuel ih =>
    unfold settleUpTo
    split
    · exact .refl l
    · rename_i job rest _
      have htaken : Goes rules l { l with agenda := rest } := .of_quiet (.of_lines rfl rfl)
      exact htaken.trans ((goes_perform rules _ job).trans (ih _))

end Work

theorem quiet_receive {rules : Rules} {l l' : Lobby} {i : Input}
    (h : receive rules l i = some l') : l.Quiet l' := by
  have hfeed : ∀ conn more, l.Quiet (feed conn more l) := by
    intro conn more
    have hfed : l.Quiet { l with
        sessions := l.sessions.modify conn fun s => { s with input := more s.input } } :=
      .of_lines rfl rfl
    exact hfed.enqueue (.attend conn)
  have hlink : ∀ conn f, l.Quiet (l.onLink conn f) := fun conn f =>
    (quiet_modify l conn (·.onWriter f) fun _ => rfl).enqueue (.write conn)
  cases i with
  | connect v =>
    simp only [receive, connect] at h
    split at h
    · cases h
      exact .refl l
    · obtain ⟨line, hline, rfl⟩ := Option.map_eq_some_iff.mp h
      refine .of_insert rfl rfl ?_
      unfold Line.new? Outbox.new? at hline
      split at hline
      · cases hline
        exact List.nil_suffix
      · cases hline
  | bytes conn pieces => cases h; exact hfeed ..
  | ending conn e => cases h; exact hfeed ..
  | stall conn => cases h; exact hlink ..
  | resume conn => cases h; exact hlink ..
  | sever conn => cases h; exact hlink ..
  | idle => cases h; exact .refl l

/-- **Histories.** Whatever comes in, a lobby takes turns and does nothing else to its registry and
its queues. -/
theorem goes_step {rules : Rules} {l l' : Lobby} {i : Input} {report : Report}
    (h : l.step rules i = some (report, l')) : Goes rules l l' := by
  obtain ⟨received, hreceived, heq⟩ := Option.map_eq_some_iff.mp h
  obtain ⟨-, rfl⟩ := Prod.mk.inj heq
  have hsettled : Goes rules l (settle rules received) :=
    (Goes.of_quiet (quiet_receive hreceived)).trans (goes_settleUpTo rules received _)
  have hcollected : (settle rules received).Quiet (settle rules received).collected :=
    .of_mapValues (fun _ line => line.collect.2) rfl rfl fun _ _ => rfl
  exact hsettled.trans (.of_quiet hcollected)

end Lobby

/-! ## A lobby for everybody -/

/-- Rules that let everybody in. -/
def Rules.plain : Rules := ⟨.default, .admitAll, .wordSum⟩

/-- The client on connection `n`. -/
def Visitor.numbered (n : UInt64) : Visitor :=
  ⟨⟨n⟩, .v4 127 0 0 1, .v4 127 0 0 1⟩

/-- The client on connection `n` sends a message. -/
def Event.sent (n : UInt64) (m : Message) : Event :=
  .frame (.numbered n) (.carrying .clientToServer .applicationMessage m.payload .wordSum)

/-- Two users log in, the first offers a room and the second takes a seat in it. -/
def Lobby.evening : List Event :=
  [.sent 1 (.requestLogin ⟨[0x41], [], [], 0, 11757, 1⟩),
    .sent 2 (.requestLogin ⟨[0x42], [], [], 0, 11757, 1⟩),
    .sent 1 (.addGameServer ⟨[0x52], [], 5479, 0, 0, [], 4, 0, 0, 0, false, [], false, [], 2⟩),
    .sent 2 (.joinServer ⟨0, 1, 2⟩)]

end GameLobby
