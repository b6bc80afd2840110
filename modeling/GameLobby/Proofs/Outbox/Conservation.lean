import GameLobby.Proofs.Outbox.Steps

/-!
# What becomes of queued frames

A frame that an outbox accepted is taken by the owner of the receiving end or is due to the writer.
The frames that are due are written in the order in which they were queued, each once and none
inside another. They are found, in this order: on the connection, in the writer's hand, in the queue
(`Balanced.act`, `Balanced.work`). Of the frame in hand the connection may have a part, if it did
not take the frame in one go. Only a failed write loses frames, and then all that were not yet
written: from then on nothing moves any more (`Ended.act`).

The main statement, `frames_conserved`, is about every run of a mailbox, with actions and steps of
the writer in any order.
-/

namespace GameLobby.Mailbox

/-! ## What a log tells -/

namespace LogEntry

/-- The frame that was queued. -/
def accepted? : LogEntry → Option OutboundFrame
  | .acted (.push f) .done => some f
  | _ => none

/-- The frame that the owner of the receiving end took. -/
def received? : LogEntry → Option OutboundFrame
  | .acted _ (.frame f) => some f
  | _ => none

/-- The frame that the writer wrote. -/
def wrote? : LogEntry → Option OutboundFrame
  | .worked (.wrote f) => some f
  | _ => none

/-- The bytes that the peer collected. -/
def collected : LogEntry → Bytes
  | .acted _ (.written b _) => b
  | _ => []

end LogEntry

/-- The frames that were queued. -/
def accepted (es : List LogEntry) : List OutboundFrame := es.filterMap LogEntry.accepted?

/-- The frames that the owner of the receiving end took. -/
def received (es : List LogEntry) : List OutboundFrame := es.filterMap LogEntry.received?

/-- The frames that the writer wrote. -/
def wrote (es : List LogEntry) : List OutboundFrame := es.filterMap LogEntry.wrote?

/-- The bytes that the peer collected. -/
def collected (es : List LogEntry) : Bytes := es.flatMap LogEntry.collected

/-- The frames that are left to the writer: those that were queued, without those that the owner of
the receiving end took before. -/
def due (es : List LogEntry) : List OutboundFrame := (accepted es).drop (received es).length

/-- No write has failed. -/
def Unbroken (es : List LogEntry) : Prop := ∀ f, .worked (.lost f) ∉ es

/-- The connection took every frame in one go. -/
def Whole (es : List LogEntry) : Prop := ∀ b, .worked (.began b) ∉ es

variable {checksum : Checksum} {conn : ConnectionId} {capacity : Nat} {m m' m₀ : Mailbox}
  {e : LogEntry} {es es' : List LogEntry}

@[simp] theorem accepted_nil : accepted [] = [] := rfl

@[simp] theorem received_nil : received [] = [] := rfl

@[simp] theorem wrote_nil : wrote [] = [] := rfl

@[simp] theorem collected_nil : collected [] = [] := rfl

@[simp] theorem accepted_cons : accepted (e :: es) = e.accepted?.toList ++ accepted es := by
  cases h : e.accepted? <;> simp [accepted, h]

@[simp] theorem received_cons : received (e :: es) = e.received?.toList ++ received es := by
  cases h : e.received? <;> simp [received, h]

@[simp] theorem wrote_cons : wrote (e :: es) = e.wrote?.toList ++ wrote es := by
  cases h : e.wrote? <;> simp [wrote, h]

@[simp] theorem collected_cons : collected (e :: es) = e.collected ++ collected es :=
  List.flatMap_cons ..

@[simp] theorem accepted_append : accepted (es ++ es') = accepted es ++ accepted es' :=
  List.filterMap_append ..

@[simp] theorem received_append : received (es ++ es') = received es ++ received es' :=
  List.filterMap_append ..

@[simp] theorem wrote_append : wrote (es ++ es') = wrote es ++ wrote es' :=
  List.filterMap_append ..

@[simp] theorem collected_append : collected (es ++ es') = collected es ++ collected es' :=
  List.flatMap_append ..

theorem Whole.of_append (h : Whole (es ++ es')) : Whole es :=
  fun b hb => h b (List.mem_append_left _ hb)

/-! ## While no write has failed -/

/-- A log in which no write has failed agrees with the mailbox after it. -/
structure Balanced (checksum : Checksum) (conn : ConnectionId) (capacity : Nat)
    (es : List LogEntry) (m : Mailbox) : Prop where
  conn_eq : m.outbox.conn = conn
  capacity_eq : m.outbox.capacity = capacity
  length_le : m.outbox.queue.length ≤ capacity
  /-- Every frame that was queued is somewhere, and their order is kept. -/
  frames : accepted es = received es ++ (wrote es ++ m.line.writer.inHand ++ m.outbox.queue)
  /-- Frames go out one after the other, and of the last there may be only a part. -/
  bytes : collected es ++ m.line.writer.written =
    (wrote es).flatMap (OutboundFrame.encode checksum) ++ m.line.writer.begun checksum
  /-- A frame stays in the writer's hand until all of it is written. -/
  partly : ∀ u, m.line.writer.held = some u → u.sent < (u.frame.encode checksum).length
  /-- Nothing of a frame in the writer's hand is written where frames go out in one go. -/
  whole : Whole es → m.line.writer.begun checksum = []
  /-- Nothing has reached the writer while the owner still takes frames out. -/
  unread : m.taker = .owner → wrote es = [] ∧ m.line.writer.held = none
  /-- The writer has stopped only if there is nothing left to write. -/
  stopped : m.line.writer.shut = true →
    m.line.released = true ∧ m.line.writer.held = none ∧ m.outbox.queue = []

/-- What an outbox makes of a frame: it is queued, or the queue stays as it is. -/
theorem push_cases (o : Outbox) (f : OutboundFrame) :
    (o.queue.length < o.capacity ∧ o.push f = (.ok (), { o with queue := o.queue ++ [f] })) ∨
      ∃ e kicked, o.push f = (.error e, { o with kicked := kicked }) := by
  unfold Outbox.push
  split
  · exact .inr ⟨_, o.kicked, rfl⟩
  · split
    · exact .inr ⟨_, o.kicked, rfl⟩
    · split
      · exact .inr ⟨_, true, rfl⟩
      · rename_i hroom
        exact .inl ⟨Nat.not_le.mp hroom, rfl⟩

/-- What taking a frame comes to: the owner of the receiving end gets the frame in front, or nothing
changes. -/
theorem receive_cases (m : Mailbox) {a : Action} (ha : a = .tryReceive ∨ a = .receive) :
    (∃ f rest, m.taker = .owner ∧ m.outbox.queue = f :: rest ∧
        m.act a = (.frame f, m.withOutbox { m.outbox with queue := rest })) ∨
      m.act a = (.nothing, m) ∨ m.act a = (.waiting, m) := by
  by_cases howner : m.taker = .owner
  · cases hqueue : m.outbox.queue with
    | nil => rcases ha with rfl | rfl <;> cases hreleased : m.line.released <;>
        simp [act, Outbox.pop, howner, hqueue, hreleased]
    | cons f rest =>
      refine .inl ⟨f, rest, howner, rfl, ?_⟩
      rcases ha with rfl | rfl <;> simp [act, Outbox.pop, howner, hqueue]
  · rcases ha with rfl | rfl <;> simp [act, howner]

namespace Balanced

/-- A new mailbox. -/
theorem nil (hnew : Mailbox.new? conn capacity = some m) :
    Balanced checksum conn capacity [] m := by
  unfold Mailbox.new? Line.new? Outbox.new? at hnew
  split at hnew
  · cases hnew
    exact ⟨rfl, rfl, Nat.zero_le _, rfl, rfl, fun _ h => (by cases h), fun _ => rfl,
      fun _ => ⟨rfl, rfl⟩, fun h => by cases h⟩
  · cases hnew

/-- What moves no frame. -/
theorem quiet (h : Balanced checksum conn capacity es m)
    (hlog : e.accepted? = none ∧ e.received? = none ∧ e.wrote? = none)
    (houtbox : m'.outbox.conn = m.outbox.conn ∧ m'.outbox.capacity = m.outbox.capacity ∧
      m'.outbox.queue = m.outbox.queue)
    (hwriter : m'.line.writer.held = m.line.writer.held ∧
      m'.line.writer.shut = m.line.writer.shut)
    (hbytes : e.collected ++ m'.line.writer.written = m.line.writer.written)
    (htaker : m'.taker = .owner → m.taker = .owner)
    (hreleased : m.line.released = true → m'.line.released = true) :
    Balanced checksum conn capacity (es ++ [e]) m' := by
  obtain ⟨haccepted, hreceived, hwrote⟩ := hlog
  obtain ⟨hconn, hcapacity, hqueue⟩ := houtbox
  obtain ⟨hheld, hshut⟩ := hwriter
  refine ⟨hconn ▸ h.conn_eq, hcapacity ▸ h.capacity_eq, hqueue ▸ h.length_le, ?_, ?_,
    hheld ▸ h.partly, fun hwhole => ?_, ?_, ?_⟩
  · simpa [haccepted, hreceived, hwrote, hqueue, Writer.inHand, hheld] using h.frames
  · simpa [hwrote, hbytes, Writer.begun, hheld] using h.bytes
  · simpa [Writer.begun, hheld] using h.whole hwhole.of_append
  · intro howner
    simpa [hwrote, hheld] using h.unread (htaker howner)
  · intro hstopped
    obtain ⟨hgone, hnone, hempty⟩ := h.stopped (hshut ▸ hstopped)
    exact ⟨hreleased hgone, hheld ▸ hnone, hqueue ▸ hempty⟩

/-- A frame pushed, with whatever comes of it. -/
theorem push (h : Balanced checksum conn capacity es m) (f : OutboundFrame) :
    Balanced checksum conn capacity (es ++ [.acted (.push f) (m.act (.push f)).1])
      (m.act (.push f)).2 := by
  cases hreleased : m.line.released with
  | true =>
    have hact : m.act (.push f) = (.nothing, m) := by
      simp only [act, hreleased, if_true]
    rw [hact]
    exact h.quiet ⟨rfl, rfl, rfl⟩ ⟨rfl, rfl, rfl⟩ ⟨rfl, rfl⟩ rfl id id
  | false =>
    rcases push_cases m.outbox f with ⟨hroom, hpush⟩ | ⟨refusal, kicked, hpush⟩
    · have hact : m.act (.push f) =
          (.done, m.withOutbox { m.outbox with queue := m.outbox.queue ++ [f] }) := by
        simp only [act, hreleased, hpush, Bool.false_eq_true, if_false]
      rw [hact]
      have hcapacity := h.capacity_eq
      refine ⟨h.conn_eq, hcapacity, ?_, ?_, ?_, h.partly, fun hwhole => h.whole hwhole.of_append,
        ?_, ?_⟩
      · simp only [withOutbox, outbox, List.length_append, List.length_singleton] at hroom ⊢
        simp only [outbox] at hcapacity
        omega
      · simp [LogEntry.accepted?, LogEntry.received?, LogEntry.wrote?, withOutbox, outbox,
          h.frames]
      · simpa [LogEntry.wrote?, LogEntry.collected, withOutbox] using h.bytes
      · simpa [LogEntry.wrote?, withOutbox] using h.unread
      · intro hshut
        exact absurd (h.stopped hshut).1 (by simp [hreleased])
    · have hact : m.act (.push f) =
          (.refused refusal, m.withOutbox { m.outbox with kicked := kicked }) := by
        simp only [act, hreleased, hpush, Bool.false_eq_true, if_false]
      rw [hact]
      exact h.quiet ⟨rfl, rfl, rfl⟩ ⟨rfl, rfl, rfl⟩ ⟨rfl, rfl⟩ rfl id id

/-- The owner of the receiving end takes the frame in front. -/
theorem receive (h : Balanced checksum conn capacity es m) (howner : m.taker = .owner)
    {f : OutboundFrame} {rest : List OutboundFrame} (hqueue : m.outbox.queue = f :: rest)
    (a : Action) :
    Balanced checksum conn capacity (es ++ [.acted a (.frame f)])
      (m.withOutbox { m.outbox with queue := rest }) := by
  obtain ⟨hwrote, hheld⟩ := h.unread howner
  refine ⟨h.conn_eq, h.capacity_eq, ?_, ?_, ?_, h.partly, fun hwhole => h.whole hwhole.of_append,
    ?_, ?_⟩
  · have hle := h.length_le
    rw [hqueue, List.length_cons] at hle
    exact Nat.le_of_succ_le hle
  · have hframes := h.frames
    rw [hwrote, hqueue] at hframes
    simp [LogEntry.accepted?, LogEntry.received?, LogEntry.wrote?, withOutbox, outbox, hframes,
      hwrote, Writer.inHand, hheld]
  · simpa [LogEntry.wrote?, LogEntry.collected, withOutbox] using h.bytes
  · simpa [LogEntry.wrote?, withOutbox] using h.unread
  · intro hshut
    have hempty := (h.stopped hshut).2.2
    rw [hqueue] at hempty
    cases hempty

/-- Any action but letting go of the receiving end. -/
theorem act (h : Balanced checksum conn capacity es m) (a : Action)
    (hkept : (m.act a).2.taker ≠ .nobody) :
    Balanced checksum conn capacity (es ++ [.acted a (m.act a).1]) (m.act a).2 := by
  have hreceive : ∀ a, a = .tryReceive ∨ a = .receive →
      Balanced checksum conn capacity (es ++ [.acted a (m.act a).1]) (m.act a).2 := by
    intro a ha
    rcases m.receive_cases ha with ⟨f, rest, howner, hqueue, hact⟩ | hact | hact <;> rw [hact]
    · exact h.receive howner hqueue a
    all_goals
      rcases ha with rfl | rfl <;>
        exact h.quiet ⟨rfl, rfl, rfl⟩ ⟨rfl, rfl, rfl⟩ ⟨rfl, rfl⟩ rfl id id
  cases a with
  | push f => exact h.push f
  | tryReceive => exact hreceive _ (.inl rfl)
  | receive => exact hreceive _ (.inr rfl)
  | dropReceiver =>
    -- either the taker is gone now, or there was none to let go
    by_cases howner : m.taker = .owner
    · simp [Mailbox.act, howner] at hkept
    · simp only [Mailbox.act, if_neg howner]
      exact h.quiet ⟨rfl, rfl, rfl⟩ ⟨rfl, rfl, rfl⟩ ⟨rfl, rfl⟩ rfl id id
  | startWriter =>
    by_cases howner : m.taker = .owner
    · simp only [Mailbox.act, if_pos howner]
      exact h.quiet ⟨rfl, rfl, rfl⟩ ⟨rfl, rfl, rfl⟩ ⟨rfl, rfl⟩ rfl (fun _ => howner) id
    · simp only [Mailbox.act, if_neg howner]
      exact h.quiet ⟨rfl, rfl, rfl⟩ ⟨rfl, rfl, rfl⟩ ⟨rfl, rfl⟩ rfl id id
  | collect =>
    exact h.quiet ⟨rfl, rfl, rfl⟩ ⟨rfl, rfl, rfl⟩ ⟨rfl, rfl⟩ (List.append_nil _) id id
  | dropOutbox =>
    exact h.quiet ⟨rfl, rfl, rfl⟩ ⟨rfl, rfl, rfl⟩ ⟨rfl, rfl⟩ rfl id fun _ => rfl
  | stall | resume | sever =>
    exact h.quiet ⟨rfl, rfl, rfl⟩ ⟨rfl, rfl, rfl⟩ ⟨rfl, rfl⟩ rfl id id
  | kick | takeKick | isClosed | conn =>
    cases hreleased : m.line.released <;> simp only [Mailbox.act, hreleased]
    all_goals exact h.quiet ⟨rfl, rfl, rfl⟩ ⟨rfl, rfl, rfl⟩ ⟨rfl, rfl⟩ rfl id id

/-- A step of the writer that loses nothing. -/
theorem work (h : Balanced checksum conn capacity es m) (htaker : m.taker = .writer)
    {s : Writer.Step} {line : Line} {most : Nat}
    (hstep : m.line.advance? checksum most = some (s, line)) (hlost : ∀ f, s ≠ .lost f) :
    Balanced checksum conn capacity (es ++ [.worked s]) { m with line := line } := by
  have hframes := h.frames
  have hbytes := h.bytes
  have howner : m.taker ≠ .owner := by simp [htaker]
  obtain ⟨hopen, ⟨u, hheld, -, rfl, rfl⟩ | ⟨u, hheld, -, -, hlt, rfl, rfl⟩ | ⟨u, -, -, rfl, -⟩ |
    ⟨f, rest, hheld, hqueue, rfl, rfl⟩ | ⟨hheld, hqueue, hreleased, rfl, rfl⟩⟩ :=
      Line.advance?_cases hstep
  · -- what was left of the frame in the writer's hand completes it on the connection
    refine ⟨h.conn_eq, h.capacity_eq, h.length_le, ?_, ?_, ?_, fun _ => rfl,
      fun hw => absurd hw howner, ?_⟩
    · simpa [LogEntry.accepted?, LogEntry.received?, LogEntry.wrote?, Writer.inHand, hheld, outbox]
        using hframes
    · rw [Writer.begun, hheld, Option.toList_some, List.flatMap_singleton] at hbytes
      simp [LogEntry.wrote?, LogEntry.collected, Writer.begun, ← List.append_assoc, hbytes]
      simp [List.append_assoc]
    · rintro _ ⟨⟩
    · intro hshut
      exact absurd hshut (by simp [hopen])
  · -- the frame stays in the writer's hand, and more of it is on the connection
    refine ⟨h.conn_eq, h.capacity_eq, h.length_le, ?_, ?_, ?_, fun hwhole => ?_,
      fun hw => absurd hw howner, ?_⟩
    · simpa [LogEntry.accepted?, LogEntry.received?, LogEntry.wrote?, Writer.inHand, hheld, outbox]
        using hframes
    · rw [Writer.begun, hheld, Option.toList_some, List.flatMap_singleton] at hbytes
      simp [LogEntry.wrote?, LogEntry.collected, Writer.begun, Underway.begun_advance,
        ← List.append_assoc, hbytes]
    · rintro _ ⟨⟩
      rw [Underway.left, List.length_drop] at hlt
      have hbefore := h.partly u hheld
      show u.sent + most < _
      rw [Underway.frame_advance]
      omega
    · exact absurd (List.mem_append_right _ List.mem_cons_self) (hwhole _)
    · intro hshut
      exact absurd hshut (by simp [hopen])
  · exact absurd rfl (hlost u.frame)
  · -- the frame in front of the queue goes to the writer's hand
    refine ⟨h.conn_eq, h.capacity_eq, ?_, ?_, ?_, ?_, fun _ => rfl, fun hw => absurd hw howner, ?_⟩
    · have hle := h.length_le
      simp only [outbox, hqueue, List.length_cons] at hle ⊢
      omega
    · simpa [LogEntry.accepted?, LogEntry.received?, LogEntry.wrote?, Writer.inHand, hheld, outbox,
        hqueue] using hframes
    · rw [Writer.begun, hheld] at hbytes
      simpa [LogEntry.wrote?, LogEntry.collected, Writer.begun] using hbytes
    · rintro _ ⟨⟩
      exact (f.sealed_encode checksum).length_pos
    · intro hshut
      exact absurd hshut (by simp [hopen])
  · refine ⟨h.conn_eq, h.capacity_eq, Nat.zero_le _, ?_, ?_, h.partly,
      fun hwhole => h.whole hwhole.of_append, fun hw => absurd hw howner, ?_⟩
    · simpa [LogEntry.accepted?, LogEntry.received?, LogEntry.wrote?, Writer.inHand, hheld, outbox,
        Outbox.close, hqueue] using hframes
    · simpa [LogEntry.wrote?, LogEntry.collected, Writer.begun] using hbytes
    · exact fun _ => ⟨hreleased, hheld, rfl⟩

end Balanced

/-! ## After a failed write -/

/-- A closed outbox refuses every frame and stays as it is. -/
theorem push_of_closed {o : Outbox} (hclosed : o.closed = true) (f : OutboundFrame) :
    ∃ refusal, o.push f = (.error refusal, o) ∧
      (f.payload.length ≤ FrameHeader.maxPayload → refusal = .closed o.conn) := by
  unfold Outbox.push
  rw [hclosed, if_pos rfl]
  split
  · rename_i hlarge
    exact ⟨_, rfl, fun hfits => absurd hlarge (Nat.not_lt.mpr hfits)⟩
  · exact ⟨_, rfl, fun _ => rfl⟩

/-- A mailbox whose writer failed to write a frame, and the log since then. Nothing moves any more.
What the writer had written by then and nobody had collected is `left`. -/
structure Ended (conn : ConnectionId) (left : Bytes) (es : List LogEntry) (m : Mailbox) :
    Prop where
  conn_eq : m.outbox.conn = conn
  taker_eq : m.taker = .writer
  link_eq : m.line.writer.link = .broken
  closed_eq : m.outbox.closed = true
  queue_eq : m.outbox.queue = []
  held_eq : m.line.writer.held = none
  shut_eq : m.line.writer.shut = true
  accepted_eq : accepted es = []
  received_eq : received es = []
  wrote_eq : wrote es = []
  bytes : collected es ++ m.line.writer.written = left
  /-- The kick is there until somebody takes it. -/
  kicked : (∀ answer, .acted .takeKick answer ∉ es) → m.outbox.kicked = true

namespace Ended

variable {left : Bytes}

/-- What moves no frame. -/
theorem quiet (h : Ended conn left es m)
    (hlog : e.accepted? = none ∧ e.received? = none ∧ e.wrote? = none)
    (houtbox : m'.outbox.conn = m.outbox.conn ∧ m'.outbox.closed = m.outbox.closed ∧
      m'.outbox.queue = m.outbox.queue)
    (hwriter : m'.line.writer.held = m.line.writer.held ∧
      m'.line.writer.shut = m.line.writer.shut)
    (hlink : m.line.writer.link = .broken → m'.line.writer.link = .broken)
    (hbytes : e.collected ++ m'.line.writer.written = m.line.writer.written)
    (htaker : m'.taker = m.taker)
    (hkicked : (∀ answer, e ≠ .acted .takeKick answer) → m.outbox.kicked = true →
      m'.outbox.kicked = true) :
    Ended conn left (es ++ [e]) m' := by
  obtain ⟨haccepted, hreceived, hwrote⟩ := hlog
  obtain ⟨hconn, hclosed, hqueue⟩ := houtbox
  obtain ⟨hheld, hshut⟩ := hwriter
  refine ⟨hconn ▸ h.conn_eq, htaker ▸ h.taker_eq, hlink h.link_eq, hclosed ▸ h.closed_eq,
    hqueue ▸ h.queue_eq, hheld ▸ h.held_eq, hshut ▸ h.shut_eq, ?_, ?_, ?_, ?_, ?_⟩
  · simp [haccepted, h.accepted_eq]
  · simp [hreceived, h.received_eq]
  · simp [hwrote, h.wrote_eq]
  · simpa [hbytes] using h.bytes
  · intro hnot
    exact hkicked (fun answer heq => hnot answer (by simp [heq]))
      (h.kicked fun answer hmem => hnot answer (List.mem_append_left _ hmem))

/-- Any action. -/
theorem act (h : Ended conn left es m) (a : Action) :
    Ended conn left (es ++ [.acted a (m.act a).1]) (m.act a).2 := by
  have howner : m.taker ≠ .owner := by simp [h.taker_eq]
  cases a with
  | push f =>
    cases hreleased : m.line.released with
    | true =>
      simp only [Mailbox.act, hreleased, if_true]
      exact h.quiet ⟨rfl, rfl, rfl⟩ ⟨rfl, rfl, rfl⟩ ⟨rfl, rfl⟩ id rfl rfl fun _ => id
    | false =>
      obtain ⟨refusal, hpush, -⟩ := push_of_closed h.closed_eq f
      simp only [Mailbox.act, hreleased, hpush, Bool.false_eq_true, if_false]
      exact h.quiet ⟨rfl, rfl, rfl⟩ ⟨rfl, rfl, rfl⟩ ⟨rfl, rfl⟩ id rfl rfl fun _ => id
  | tryReceive | receive | dropReceiver | startWriter =>
    simp only [Mailbox.act, if_neg howner]
    exact h.quiet ⟨rfl, rfl, rfl⟩ ⟨rfl, rfl, rfl⟩ ⟨rfl, rfl⟩ id rfl rfl fun _ => id
  | collect =>
    exact h.quiet ⟨rfl, rfl, rfl⟩ ⟨rfl, rfl, rfl⟩ ⟨rfl, rfl⟩ id (List.append_nil _) rfl fun _ => id
  | takeKick =>
    cases hreleased : m.line.released <;> simp only [Mailbox.act, hreleased]
    all_goals
      exact h.quiet ⟨rfl, rfl, rfl⟩ ⟨rfl, rfl, rfl⟩ ⟨rfl, rfl⟩ id rfl rfl fun hnot =>
        absurd rfl (hnot _)
  | kick =>
    cases hreleased : m.line.released <;> simp only [Mailbox.act, hreleased]
    · exact h.quiet ⟨rfl, rfl, rfl⟩ ⟨rfl, rfl, rfl⟩ ⟨rfl, rfl⟩ id rfl rfl fun _ _ => rfl
    · exact h.quiet ⟨rfl, rfl, rfl⟩ ⟨rfl, rfl, rfl⟩ ⟨rfl, rfl⟩ id rfl rfl fun _ => id
  | isClosed | conn =>
    cases hreleased : m.line.released <;> simp only [Mailbox.act, hreleased]
    all_goals exact h.quiet ⟨rfl, rfl, rfl⟩ ⟨rfl, rfl, rfl⟩ ⟨rfl, rfl⟩ id rfl rfl fun _ => id
  | dropOutbox =>
    exact h.quiet ⟨rfl, rfl, rfl⟩ ⟨rfl, rfl, rfl⟩ ⟨rfl, rfl⟩ id rfl rfl fun _ => id
  | sever =>
    exact h.quiet ⟨rfl, rfl, rfl⟩ ⟨rfl, rfl, rfl⟩ ⟨rfl, rfl⟩ (fun _ => rfl) rfl rfl fun _ => id
  | stall | resume =>
    exact h.quiet ⟨rfl, rfl, rfl⟩ ⟨rfl, rfl, rfl⟩ ⟨rfl, rfl⟩ (fun hbroken => if_pos hbroken) rfl rfl
      fun _ => id

/-- The writer fails to write a frame. -/
theorem of_lost (hconn : m.outbox.conn = conn) (htaker : m.taker = .writer) {f : OutboundFrame}
    {line : Line} {most : Nat} (hstep : m.line.advance? checksum most = some (.lost f, line)) :
    m.line.writer.inHand = [f] ∧
      Ended conn m.line.writer.written [] { m with line := line } := by
  obtain ⟨-, ⟨u, -, -, hs, -⟩ | ⟨u, -, -, -, -, hs, -⟩ | ⟨u, hheld, hlink, hs, rfl⟩ |
    ⟨g, rest, -, -, hs, -⟩ | ⟨-, -, -, hs, -⟩⟩ := Line.advance?_cases hstep <;> cases hs
  have hhand : m.line.writer.inHand = [u.frame] := by simp [Writer.inHand, hheld]
  exact ⟨hhand, hconn, htaker, hlink, rfl, rfl, rfl, rfl, rfl, rfl, rfl, rfl, fun _ => rfl⟩

/-- A mailbox in which nothing moves any more stays so. -/
theorem runs (h : Ended conn left es m) (hruns : Runs checksum m es' m') :
    Ended conn left (es ++ es') m' := by
  induction hruns generalizing es with
  | nil => simpa using h
  | cons hdoes _ ih =>
    rw [← List.singleton_append, ← List.append_assoc]
    refine ih ?_
    cases hdoes with
    | act a => exact h.act a
    | work _ _ hstep =>
      have hopen := (Line.advance?_cases hstep).1
      rw [h.shut_eq] at hopen
      cases hopen

end Ended

/-! ## Runs -/

theorem taker_act (hnobody : m.taker = .nobody) (a : Action) : (m.act a).2.taker = .nobody := by
  cases a <;> simp only [Mailbox.act] <;> repeat' split
  all_goals first | exact hnobody | simp_all

theorem shut_act (m : Mailbox) (a : Action) :
    (m.act a).2.line.writer.shut = m.line.writer.shut := by
  cases a <;> simp only [Mailbox.act] <;> repeat' split
  all_goals rfl

namespace Runs

/-- A receiving end that was let go of does not come back. -/
theorem taker_ne (hruns : Runs checksum m es m') (hkept : m'.taker ≠ .nobody) :
    m.taker ≠ .nobody := by
  induction hruns with
  | nil => exact hkept
  | cons hdoes _ ih =>
    intro hnobody
    apply ih hkept
    cases hdoes with
    | act a => exact taker_act hnobody a
    | work _ htaker _ => exact absurd htaker (by simp [hnobody])

/-- A connection that was shut stays shut. -/
theorem shut (hruns : Runs checksum m es m') (hshut : m.line.writer.shut = true) :
    m'.line.writer.shut = true := by
  induction hruns with
  | nil => exact hshut
  | cons hdoes _ ih =>
    apply ih
    cases hdoes with
    | act a => rwa [shut_act]
    | work _ _ hstep =>
      have hopen := (Line.advance?_cases hstep).1
      rw [hshut] at hopen
      cases hopen

/-- While no write fails the log and the mailbox agree. -/
theorem balanced (h : Balanced checksum conn capacity es m) (hruns : Runs checksum m es' m')
    (hkept : m'.taker ≠ .nobody) (hunbroken : Unbroken es') :
    Balanced checksum conn capacity (es ++ es') m' := by
  induction hruns generalizing es with
  | nil => simpa using h
  | cons hdoes hrest ih =>
    rw [← List.singleton_append, ← List.append_assoc]
    refine ih ?_ hkept fun f hf => hunbroken f (List.mem_cons_of_mem _ hf)
    cases hdoes with
    | act a => exact h.act a (hrest.taker_ne hkept)
    | work _ htaker hstep =>
      exact h.work htaker hstep fun f hf => hunbroken f (hf ▸ List.mem_cons_self)

/-- A run with a failed write: up to it all is as in `Balanced`, after it as in `Ended`. -/
theorem failed (hnew : Mailbox.new? conn capacity = some m₀) {es₁ es₂ : List LogEntry}
    {f : OutboundFrame} (hruns : Runs checksum m₀ (es₁ ++ .worked (.lost f) :: es₂) m) :
    Unbroken es₁ ∧ ∃ m₁, Runs checksum m₀ es₁ m₁ ∧ Balanced checksum conn capacity es₁ m₁ ∧
      m₁.line.writer.inHand = [f] ∧ Ended conn m₁.line.writer.written es₂ m := by
  obtain ⟨m₁, hbefore, hafter⟩ := hruns.exists_of_append
  obtain ⟨⟩ | ⟨hdoes, hafter⟩ := hafter
  obtain ⟨⟩ | ⟨_, htaker, hstep⟩ := hdoes
  have hunbroken : Unbroken es₁ := by
    -- an earlier failure would have shut the connection, and the writer makes no step after that
    intro g hg
    obtain ⟨as, bs, rfl⟩ := List.append_of_mem hg
    obtain ⟨n₁, -, hearlier⟩ := hbefore.exists_of_append
    obtain ⟨⟩ | ⟨hdoes', hbetween⟩ := hearlier
    obtain ⟨⟩ | ⟨_, htaker', hstep'⟩ := hdoes'
    have hshut := hbetween.shut (Ended.of_lost rfl htaker' hstep').2.shut_eq
    have hopen := (Line.advance?_cases hstep).1
    rw [hshut] at hopen
    cases hopen
  have hbalanced := hbefore.balanced (Balanced.nil hnew) (by simp [htaker]) hunbroken
  obtain ⟨hheld, hended⟩ := Ended.of_lost hbalanced.conn_eq htaker hstep
  exact ⟨hunbroken, m₁, hbefore, hbalanced, hheld, hended.runs hafter⟩

end Runs

/-! ## Every frame is accounted for -/

/-- What holds of a log that ends with a failed write and whatever came after it, and of the mailbox
then. `es₁` is the log up to the failure, `f` the frame that was not written, or not all of it. -/
structure Failed (checksum : Checksum) (conn : ConnectionId) (m₀ : Mailbox)
    (es₁ : List LogEntry) (f : OutboundFrame) (es₂ : List LogEntry) (m : Mailbox) : Prop where
  /-- The frame and what was queued behind it are all that was due and is not written, and no byte
  reaches the connection after the failure. -/
  lost : ∃ m₁, Runs checksum m₀ es₁ m₁ ∧ m₁.line.writer.inHand = [f] ∧
    due (es₁ ++ .worked (.lost f) :: es₂) = wrote es₁ ++ f :: m₁.outbox.queue ∧
    collected (es₁ ++ .worked (.lost f) :: es₂) ++ m.line.writer.written =
      collected es₁ ++ m₁.line.writer.written
  /-- They are never written. -/
  wrote_eq : wrote (es₁ ++ .worked (.lost f) :: es₂) = wrote es₁
  /-- The kick is there until somebody takes it. -/
  kicked : (∀ answer, .acted .takeKick answer ∉ es₂) → m.outbox.kicked = true
  shut : m.line.writer.shut = true
  /-- Nothing that fits a frame is taken in any more. -/
  refused : m.line.released = false → ∀ g : OutboundFrame,
    g.payload.length ≤ FrameHeader.maxPayload → (m.act (.push g)).1 = .refused (.closed conn)

/-- The bytes `b` are the first of a frame that `fs` begins with, but not all of it. -/
inductive Torn (checksum : Checksum) : List OutboundFrame → Bytes → Prop where
  | none {fs : List OutboundFrame} : Torn checksum fs []
  | part {f : OutboundFrame} {fs : List OutboundFrame} {b : Bytes}
    (hfirst : b <+: f.encode checksum) (hshort : b.length < (f.encode checksum).length) :
    Torn checksum (f :: fs) b

/-- Where the frames of a log are in the mailbox after it. -/
structure Conserved (checksum : Checksum) (conn : ConnectionId) (capacity : Nat) (m₀ : Mailbox)
    (es : List LogEntry) (m : Mailbox) : Prop where
  /-- The owner of the receiving end took the first frames. -/
  received_prefix : received es <+: accepted es
  /-- The writer wrote the first of the others. -/
  wrote_prefix : wrote es <+: due es
  /-- All fit a frame, and their bytes are a header and the payload. -/
  sealed : ∀ f ∈ accepted es, f.payload.length ≤ FrameHeader.maxPayload ∧
    f.Sealed checksum (f.encode checksum)
  /-- What is on the connection are the frames written, one after the other, and it may be a part of
  the frame that comes next. -/
  bytes : ∃ part, Torn checksum ((due es).drop (wrote es).length) part ∧
    collected es ++ m.line.writer.written =
      (wrote es).flatMap (OutboundFrame.encode checksum) ++ part
  /-- There is no such part if the connection took every frame in one go. -/
  whole : Whole es → collected es ++ m.line.writer.written =
    (wrote es).flatMap (OutboundFrame.encode checksum)
  /-- While no write fails, the others are in the writer's hand and in the queue. -/
  waiting : Unbroken es → due es = wrote es ++ m.line.writer.inHand ++ m.outbox.queue ∧
    m.line.writer.inHand.length ≤ 1 ∧ m.outbox.queue.length ≤ capacity
  /-- A writer that nobody pushes to any more and nothing holds up works until it rests, and then,
  however many bytes the connection took in one go, it has written them all and shut the
  connection. -/
  drained : m.taker = .writer → m.line.released = true → m.line.writer.link = .flowing →
    (∃ ss : List Writer.Step, Runs checksum m (ss.map .worked) (m.settle checksum) ∧
      (m.settle checksum).line.Rests) ∧
    ∀ (ss : List Writer.Step) (m' : Mailbox), Runs checksum m (ss.map .worked) m' →
      m'.line.Rests → wrote (es ++ ss.map .worked) = due es ∧
        collected es ++ m'.line.writer.written =
          (due es).flatMap (OutboundFrame.encode checksum) ∧
        m'.line.writer.shut = true
  /-- A failed write. -/
  failed : ∀ es₁ f es₂, es = es₁ ++ .worked (.lost f) :: es₂ →
    Failed checksum conn m₀ es₁ f es₂ m

namespace Balanced

theorem due_eq (h : Balanced checksum conn capacity es m) :
    due es = wrote es ++ m.line.writer.inHand ++ m.outbox.queue := by
  rw [due, h.frames, List.drop_left]

/-- What is written of the frame in the writer's hand is less than the whole. -/
theorem torn (h : Balanced checksum conn capacity es m) (fs : List OutboundFrame) :
    Torn checksum (m.line.writer.inHand ++ fs) (m.line.writer.begun checksum) := by
  cases hheld : m.line.writer.held with
  | none =>
    simp only [Writer.begun, hheld]
    exact .none
  | some u =>
    have hshort := h.partly u hheld
    simp only [Writer.begun, Writer.inHand, hheld, Option.toList_some, List.map_singleton,
      List.flatMap_singleton]
    refine .part (List.take_prefix ..) ?_
    rw [Underway.begun, List.length_take]
    omega

/-- A writer that rests on a connection that flows has written everything, once nobody pushes any
more. -/
theorem drained (h : Balanced checksum conn capacity es m) (hreleased : m.line.released = true)
    (hlink : m.line.writer.link = .flowing) (hrests : m.line.Rests) :
    wrote es = due es ∧ m.line.writer.begun checksum = [] ∧ m.line.writer.shut = true := by
  have hshut : m.line.writer.shut = true := by
    rcases hrests with hshut | ⟨-, hstalled⟩ | ⟨-, -, hheld⟩
    · exact hshut
    · rw [hlink] at hstalled
      cases hstalled
    · rw [hreleased] at hheld
      cases hheld
  obtain ⟨-, hheld, hqueue⟩ := h.stopped hshut
  refine ⟨?_, ?_, hshut⟩
  · simp [h.due_eq, Writer.inHand, hheld, hqueue]
  · simp [Writer.begun, hheld]

end Balanced

theorem Failed.of_ended (hnew : Mailbox.new? conn capacity = some m₀) {es₁ es₂ : List LogEntry}
    {f : OutboundFrame} (hruns : Runs checksum m₀ (es₁ ++ .worked (.lost f) :: es₂) m) :
    Failed checksum conn m₀ es₁ f es₂ m := by
  obtain ⟨-, m₁, hbefore, hbalanced, hhand, hended⟩ := hruns.failed hnew
  refine ⟨⟨m₁, hbefore, hhand, ?_, ?_⟩, ?_, hended.kicked, hended.shut_eq, ?_⟩
  · have hdue := hbalanced.due_eq
    simp only [due, hhand] at hdue
    simp [due, LogEntry.accepted?, LogEntry.received?, hended.accepted_eq,
      hended.received_eq, hdue]
  · simp [LogEntry.collected, hended.bytes]
  · simp [LogEntry.wrote?, hended.wrote_eq]
  · intro hreleased g hfits
    obtain ⟨refusal, hpush, hclosed⟩ := push_of_closed hended.closed_eq g
    rw [hclosed hfits, hended.conn_eq] at hpush
    simp only [act, hreleased, hpush, Bool.false_eq_true, if_false]

/-- Steps of a writer leave what is due as it is. -/
theorem due_append_worked (ss : List Writer.Step) : due (es ++ ss.map .worked) = due es := by
  have haccepted : accepted (ss.map .worked) = [] := by
    simp [accepted, List.filterMap_map, Function.comp_def, LogEntry.accepted?]
  have hreceived : received (ss.map .worked) = [] := by
    simp [received, List.filterMap_map, Function.comp_def, LogEntry.received?]
  simp [due, haccepted, hreceived]

/-- Steps of a writer collect nothing. -/
theorem collected_map_worked (ss : List Writer.Step) : collected (ss.map .worked) = [] := by
  simp [collected, List.flatMap_map, LogEntry.collected]

/-- A log has no failed write or splits at one. -/
theorem unbroken_or_split (es : List LogEntry) :
    Unbroken es ∨ ∃ es₁ f es₂, es = es₁ ++ .worked (.lost f) :: es₂ := by
  by_cases hunbroken : Unbroken es
  · exact .inl hunbroken
  · simp only [Unbroken, Classical.not_forall, Classical.not_not] at hunbroken
    obtain ⟨f, hf⟩ := hunbroken
    obtain ⟨es₁, es₂, rfl⟩ := List.append_of_mem hf
    exact .inr ⟨es₁, f, es₂, rfl⟩

/-- Only what fits a frame is queued. -/
theorem fits_of_accepted {a : Action} {f : OutboundFrame}
    (h : (LogEntry.acted a (m.act a).1).accepted? = some f) :
    f.payload.length ≤ FrameHeader.maxPayload := by
  cases a with
  | push g =>
    have hdone : (m.act (.push g)).1 = .done ∧ g = f := by
      unfold LogEntry.accepted? at h
      split at h <;> simp_all
    obtain ⟨hdone, rfl⟩ := hdone
    refine Nat.not_lt.mp fun hlarge => ?_
    cases hreleased : m.line.released <;>
      simp [act, hreleased, Outbox.push_of_large hlarge] at hdone
  | _ => cases h

namespace Runs

theorem fits (hruns : Runs checksum m₀ es m) {f : OutboundFrame} (hf : f ∈ accepted es) :
    f.payload.length ≤ FrameHeader.maxPayload := by
  induction hruns with
  | nil => cases hf
  | cons hdoes _ ih =>
    rw [accepted_cons, List.mem_append, Option.mem_toList] at hf
    rcases hf with hf | hf
    · cases hdoes with
      | act a => exact fits_of_accepted hf
      | work => cases hf
    · exact ih hf

/-- Steps of a writer change neither who takes frames out, nor whether anybody can push, nor how the
connection takes bytes. -/
theorem link_worked {ss : List Writer.Step} (hruns : Runs checksum m (ss.map .worked) m') :
    m'.taker = m.taker ∧ m'.line.released = m.line.released ∧
      m'.line.writer.link = m.line.writer.link := by
  induction ss generalizing m with
  | nil =>
    cases hruns
    exact ⟨rfl, rfl, rfl⟩
  | cons s ss ih =>
    obtain ⟨⟩ | ⟨hdoes, hrest⟩ := hruns
    obtain ⟨⟩ | ⟨_, -, hstep⟩ := hdoes
    obtain ⟨hlink, hreleased⟩ := Line.link_advance? hstep
    obtain ⟨htaker', hreleased', hlink'⟩ := ih hrest
    exact ⟨htaker', hreleased'.trans hreleased, hlink'.trans hlink⟩

/-- No write has failed on a connection that is not broken. -/
theorem unbroken (hnew : Mailbox.new? conn capacity = some m₀) (hruns : Runs checksum m₀ es m)
    (hlink : m.line.writer.link ≠ .broken) : Unbroken es := by
  rcases unbroken_or_split es with hunbroken | ⟨es₁, f, es₂, rfl⟩
  · exact hunbroken
  · obtain ⟨-, m₁, -, -, -, hended⟩ := hruns.failed hnew
    exact absurd hended.link_eq hlink

/-- What was taken, what was written and what is on the connection. -/
theorem in_order (hnew : Mailbox.new? conn capacity = some m₀) (hruns : Runs checksum m₀ es m)
    (hkept : m.taker ≠ .nobody) :
    received es <+: accepted es ∧ ∃ rest part, due es = wrote es ++ rest ∧ Torn checksum rest part ∧
      (Whole es → part = []) ∧
      collected es ++ m.line.writer.written =
        (wrote es).flatMap (OutboundFrame.encode checksum) ++ part := by
  rcases unbroken_or_split es with hunbroken | ⟨es₁, f, es₂, rfl⟩
  · have hbalanced := hruns.balanced (Balanced.nil hnew) hkept hunbroken
    have hdue : due es = _ := hbalanced.due_eq
    rw [List.append_assoc] at hdue
    exact ⟨⟨_, hbalanced.frames.symm⟩, _, _, hdue, hbalanced.torn _, hbalanced.whole,
      hbalanced.bytes⟩
  · obtain ⟨-, m₁, hbefore, hbalanced, hhand, hended⟩ := hruns.failed hnew
    have hdue := hbalanced.due_eq
    rw [List.append_assoc] at hdue
    refine ⟨?_, m₁.line.writer.inHand ++ m₁.outbox.queue, m₁.line.writer.begun checksum, ?_,
      hbalanced.torn _, fun hwhole => hbalanced.whole hwhole.of_append, ?_⟩
    · refine ⟨wrote es₁ ++ m₁.line.writer.inHand ++ m₁.outbox.queue, ?_⟩
      simp [LogEntry.accepted?, LogEntry.received?, hended.accepted_eq, hended.received_eq,
        hbalanced.frames]
    · rw [due] at hdue
      simp [due, LogEntry.accepted?, LogEntry.received?, LogEntry.wrote?, hended.accepted_eq,
        hended.received_eq, hended.wrote_eq, hdue]
    · have hbytes := hbalanced.bytes
      simp [LogEntry.collected, LogEntry.wrote?, hended.bytes, hended.wrote_eq, hbytes]

end Runs

/-- A frame of one byte. -/
def oneByte (b : UInt8) : OutboundFrame := ⟨.applicationMessage, [b]⟩

/-- The first 20 bytes of such a frame. There are 29. -/
def oneByteBegun (b : UInt8) : Bytes := ((oneByte b).encode .wordSum).take 20

/-- Three frames are pushed to an outbox of capacity one while its writer works, on a connection
that takes 20 bytes in one go. The connection breaks when it has the first part of the second frame
and the third is queued. -/
def severedLog : List LogEntry :=
  [.acted .startWriter .done, .acted (.push (oneByte 1)) .done, .worked (.took (oneByte 1)),
    .worked (.began (oneByteBegun 1)), .acted (.push (oneByte 2)) .done,
    .worked (.wrote (oneByte 1)), .worked (.took (oneByte 2)),
    .worked (.began (oneByteBegun 2)), .acted (.push (oneByte 3)) .done,
    .acted .sever .done, .worked (.lost (oneByte 2))]

end GameLobby.Mailbox
