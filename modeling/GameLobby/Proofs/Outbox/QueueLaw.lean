import GameLobby.Proofs.Outbox.Conservation

/-!
# Queues without a writer

The owner of the receiving end may take the frames out of a mailbox himself. What each action does
to such a mailbox is said once, by `Moves`: frames go in at one end of the queue and come out at the
other, a kick is stored or taken, or one of the two ends is let go of. A run is followed by
`Direct`, which ties the queue, the stored kick and the ends to the actions and answers so far.

The main statement, `queue_law`, says after any actions what the queue holds and what the next push
and the next question for a kick come to.
-/

namespace GameLobby.Mailbox

/-! ## Kicks in a log -/

namespace LogEntry

/-- A kick is asked for, or stored by a push to a full queue. -/
def kicks : LogEntry → Bool
  | .acted .kick _ => true
  | .acted (.push _) (.refused (.overflow _)) => true
  | _ => false

/-- A stored kick is reported. -/
def reports : LogEntry → Bool
  | .acted .takeKick (.flag true) => true
  | _ => false

end LogEntry

/-- There was a kick, and none has been reported since. -/
def Pending (es : List LogEntry) : Prop :=
  ∃ before e after, es = before ++ e :: after ∧ e.kicks ∧ ∀ e' ∈ after, ¬ e'.reports

variable {checksum : Checksum} {conn : ConnectionId} {capacity : Nat} {m m' m₀ : Mailbox}
  {a : Action} {answer : Answer} {as : List Action} {e : LogEntry} {es : List LogEntry}

theorem not_pending_nil : ¬ Pending [] := by
  rintro ⟨before, e, after, h, -⟩
  cases before <;> cases h

theorem pending_concat : Pending (es ++ [e]) ↔ e.kicks ∨ Pending es ∧ ¬ e.reports := by
  constructor
  · rintro ⟨before, k, after, h, hk, hafter⟩
    rcases List.eq_nil_or_concat after with rfl | ⟨after, last, rfl⟩
    · obtain ⟨-, hlast⟩ := List.append_inj' h rfl
      cases hlast
      exact .inl hk
    · rw [List.concat_eq_append] at h hafter
      rw [← List.cons_append, ← List.append_assoc] at h
      obtain ⟨hes, hlast⟩ := List.append_inj' h rfl
      cases hlast
      refine .inr ⟨⟨before, k, after, hes, hk, fun e' he' => ?_⟩, ?_⟩
      · exact hafter e' (List.mem_append_left _ he')
      · exact hafter e (List.mem_append_right _ List.mem_cons_self)
  · rintro (hk | ⟨⟨before, k, after, rfl, hk, hafter⟩, hreports⟩)
    · exact ⟨es, e, [], rfl, hk, fun _ h => by cases h⟩
    · refine ⟨before, k, after ++ [e], by simp, hk, fun e' he' => ?_⟩
      rcases List.mem_append.mp he' with he' | he'
      · exact hafter e' he'
      · rw [List.mem_singleton.mp he']
        exact hreports

/-! ## One action -/

theorem act_push_of_error {f : OutboundFrame} {refusal : PushError} {o : Outbox}
    (hheld : m.line.released = false) (hpush : m.outbox.push f = (.error refusal, o)) :
    m.act (.push f) = (.refused refusal, m.withOutbox o) := by
  simp only [act, hheld, hpush, Bool.false_eq_true, if_false]

theorem act_push_of_ok {f : OutboundFrame} {o : Outbox} (hheld : m.line.released = false)
    (hpush : m.outbox.push f = (.ok (), o)) : m.act (.push f) = (.done, m.withOutbox o) := by
  simp only [act, hheld, hpush, Bool.false_eq_true, if_false]

/-- What an action does to a mailbox if it starts no writer. -/
structure Moves (m : Mailbox) (a : Action) (answer : Answer) (m' : Mailbox) : Prop where
  conn_eq : m'.outbox.conn = m.outbox.conn
  capacity_eq : m'.outbox.capacity = m.outbox.capacity
  taker_eq : m'.taker = if a = .dropReceiver ∧ m.taker = .owner then .nobody else m.taker
  closed_iff : m'.outbox.closed = true ↔
    m.outbox.closed = true ∨ a = .dropReceiver ∧ m.taker = .owner
  released_iff : m'.line.released = true ↔ m.line.released = true ∨ a = .dropOutbox
  length_le : m.outbox.queue.length ≤ m.outbox.capacity →
    m'.outbox.queue.length ≤ m.outbox.capacity
  /-- What goes in goes to the end, and what comes out is in front. -/
  queue_eq : a ≠ .dropReceiver →
    m.outbox.queue ++ (LogEntry.acted a answer).accepted?.toList =
      (LogEntry.acted a answer).received?.toList ++ m'.outbox.queue
  /-- A stored kick stays until it is reported. -/
  kicked_iff : m.line.released = false → (m'.outbox.kicked = true ↔
    (LogEntry.acted a answer).kicks ∨
      m.outbox.kicked = true ∧ ¬ (LogEntry.acted a answer).reports)

namespace Moves

/-- An action that leaves the outbox and its ends alone. -/
theorem quiet (houtbox : m'.outbox = m.outbox) (htaker : m'.taker = m.taker)
    (hreleased : m'.line.released = m.line.released)
    (hreceiver : a = .dropReceiver → m.taker ≠ .owner) (hsender : a ≠ .dropOutbox)
    (hframes : (LogEntry.acted a answer).accepted? = none ∧
      (LogEntry.acted a answer).received? = none)
    (hkicks : m.line.released = false →
      (LogEntry.acted a answer).kicks = false ∧ (LogEntry.acted a answer).reports = false) :
    Moves m a answer m' where
  conn_eq := by rw [houtbox]
  capacity_eq := by rw [houtbox]
  taker_eq := by
    rw [htaker, if_neg]
    exact fun h => hreceiver h.1 h.2
  closed_iff := by
    rw [houtbox]
    exact (or_iff_left fun h => hreceiver h.1 h.2).symm
  released_iff := by
    rw [hreleased]
    exact (or_iff_left hsender).symm
  length_le := by
    rw [houtbox]
    exact id
  queue_eq _ := by simp [hframes, houtbox]
  kicked_iff h := by simp [hkicks h, houtbox]

/-- An action that lets go of neither end and leaves the outbox as `o`. -/
theorem inside {o : Outbox} (hreceiver : a ≠ .dropReceiver) (hsender : a ≠ .dropOutbox)
    (hends : o.conn = m.outbox.conn ∧ o.capacity = m.outbox.capacity ∧ o.closed = m.outbox.closed)
    (hlength : m.outbox.queue.length ≤ m.outbox.capacity → o.queue.length ≤ m.outbox.capacity)
    (hqueue : m.outbox.queue ++ (LogEntry.acted a answer).accepted?.toList =
      (LogEntry.acted a answer).received?.toList ++ o.queue)
    (hkicked : o.kicked = true ↔ (LogEntry.acted a answer).kicks ∨
      m.outbox.kicked = true ∧ ¬ (LogEntry.acted a answer).reports) :
    Moves m a answer (m.withOutbox o) where
  conn_eq := hends.1
  capacity_eq := hends.2.1
  taker_eq := (if_neg fun h => hreceiver h.1).symm
  closed_iff := by
    show o.closed = true ↔ _
    rw [hends.2.2]
    exact (or_iff_left fun h => hreceiver h.1).symm
  released_iff := (or_iff_left hsender).symm
  length_le := hlength
  queue_eq _ := hqueue
  kicked_iff _ := hkicked

theorem push (m : Mailbox) (f : OutboundFrame) :
    Moves m (.push f) (m.act (.push f)).1 (m.act (.push f)).2 := by
  cases hreleased : m.line.released with
  | true =>
    have hact : m.act (.push f) = (.nothing, m) := by
      simp only [act, hreleased, if_true]
    rw [hact]
    exact quiet rfl rfl rfl (by simp) (by simp) ⟨rfl, rfl⟩ fun _ => ⟨rfl, rfl⟩
  | false =>
    by_cases hlarge : FrameHeader.maxPayload < f.payload.length
    · rw [act_push_of_error hreleased (Outbox.push_of_large hlarge)]
      exact quiet rfl rfl rfl (by simp) (by simp) ⟨rfl, rfl⟩ fun _ => ⟨rfl, rfl⟩
    have hfits := Nat.not_lt.mp hlarge
    cases hclosed : m.outbox.closed with
    | true =>
      rw [act_push_of_error hreleased (Outbox.push_of_closed hfits hclosed)]
      exact quiet rfl rfl rfl (by simp) (by simp) ⟨rfl, rfl⟩ fun _ => ⟨rfl, rfl⟩
    | false =>
      by_cases hfull : m.outbox.capacity ≤ m.outbox.queue.length
      · rw [act_push_of_error hreleased (Outbox.push_of_full hfits hclosed hfull)]
        exact inside (by simp) (by simp) ⟨rfl, rfl, rfl⟩ id (List.append_nil _)
          (iff_of_true rfl (.inl rfl))
      · have hroom := Nat.not_le.mp hfull
        rw [act_push_of_ok hreleased (Outbox.push_of_room hfits hclosed hroom)]
        refine inside (by simp) (by simp) ⟨rfl, rfl, rfl⟩ (fun _ => ?_) rfl ?_
        · rw [List.length_append]
          exact hroom
        · simp [LogEntry.kicks, LogEntry.reports]

/-- The owner takes a frame, if there is one. -/
theorem receive (m : Mailbox) (ha : a = .tryReceive ∨ a = .receive) :
    Moves m a (m.act a).1 (m.act a).2 := by
  have hreceiver : a ≠ .dropReceiver := by rcases ha with rfl | rfl <;> simp
  have hsender : a ≠ .dropOutbox := by rcases ha with rfl | rfl <;> simp
  rcases m.receive_cases ha with ⟨f, rest, howner, hqueue, hact⟩ | hact | hact
  · rw [hact]
    refine inside hreceiver hsender ⟨rfl, rfl, rfl⟩ (fun hle => ?_) ?_ ?_
    · rw [hqueue] at hle
      exact Nat.le_of_succ_le hle
    · rw [hqueue]
      rcases ha with rfl | rfl <;> exact List.append_nil _
    · rcases ha with rfl | rfl <;> simp [LogEntry.kicks, LogEntry.reports]
  all_goals
    rw [hact]
    rcases ha with rfl | rfl <;>
      exact quiet rfl rfl rfl (by simp) hsender ⟨rfl, rfl⟩ fun _ => ⟨rfl, rfl⟩

theorem kick (m : Mailbox) : Moves m .kick (m.act .kick).1 (m.act .kick).2 := by
  cases hreleased : m.line.released with
  | true =>
    simp only [act, hreleased, if_true]
    refine quiet rfl rfl rfl (by simp) (by simp) ⟨rfl, rfl⟩ fun hheld => ?_
    rw [hreleased] at hheld
    cases hheld
  | false =>
    simp only [act, hreleased, Bool.false_eq_true, if_false]
    exact inside (by simp) (by simp) ⟨rfl, rfl, rfl⟩ id (List.append_nil _)
      (iff_of_true rfl (.inl rfl))

theorem takeKick (m : Mailbox) : Moves m .takeKick (m.act .takeKick).1 (m.act .takeKick).2 := by
  cases hreleased : m.line.released with
  | true =>
    simp only [act, hreleased, if_true]
    exact quiet rfl rfl rfl (by simp) (by simp) ⟨rfl, rfl⟩ fun _ => ⟨rfl, rfl⟩
  | false =>
    simp only [act, hreleased, Bool.false_eq_true, if_false]
    refine inside (by simp) (by simp) ⟨rfl, rfl, rfl⟩ id (List.append_nil _) ?_
    -- what is stored is reported
    refine iff_of_false Bool.false_ne_true ?_
    rintro (h | ⟨hkicked, hreports⟩)
    · cases h
    · apply hreports
      show (LogEntry.acted .takeKick (.flag m.outbox.kicked)).reports = true
      rw [hkicked]
      rfl

theorem dropReceiver (m : Mailbox) :
    Moves m .dropReceiver (m.act .dropReceiver).1 (m.act .dropReceiver).2 := by
  by_cases howner : m.taker = .owner
  · simp only [act, if_pos howner]
    refine ⟨rfl, rfl, (if_pos ⟨rfl, howner⟩).symm, iff_of_true rfl (.inr ⟨rfl, howner⟩),
      (or_iff_left (by simp)).symm, fun _ => Nat.zero_le _, fun h => absurd rfl h, fun _ => ?_⟩
    simp [LogEntry.kicks, LogEntry.reports, withOutbox, outbox, Outbox.close]
  · simp only [act, if_neg howner]
    exact quiet rfl rfl rfl (fun _ => howner) (by simp) ⟨rfl, rfl⟩ fun _ => ⟨rfl, rfl⟩

theorem dropOutbox (m : Mailbox) :
    Moves m .dropOutbox (m.act .dropOutbox).1 (m.act .dropOutbox).2 := by
  refine ⟨rfl, rfl, (if_neg (by simp)).symm, (or_iff_left (by simp)).symm,
    iff_of_true rfl (.inr rfl), id, fun _ => List.append_nil _, fun _ => ?_⟩
  simp [act, LogEntry.kicks, LogEntry.reports, outbox, Line.release]

end Moves

theorem moves_act (m : Mailbox) (ha : a ≠ .startWriter) : Moves m a (m.act a).1 (m.act a).2 := by
  cases a with
  | push f => exact .push m f
  | tryReceive => exact .receive m (.inl rfl)
  | receive => exact .receive m (.inr rfl)
  | kick => exact .kick m
  | takeKick => exact .takeKick m
  | dropReceiver => exact .dropReceiver m
  | dropOutbox => exact .dropOutbox m
  | startWriter => exact absurd rfl ha
  | isClosed | conn =>
    cases hreleased : m.line.released <;> simp only [act, hreleased]
    all_goals exact .quiet rfl rfl rfl (by simp) (by simp) ⟨rfl, rfl⟩ fun _ => ⟨rfl, rfl⟩
  | stall | resume | sever | collect =>
    exact .quiet rfl rfl rfl (by simp) (by simp) ⟨rfl, rfl⟩ fun _ => ⟨rfl, rfl⟩

/-! ## Runs -/

/-- A mailbox that never had a writer, after the actions `as` with the log `es`. -/
structure Direct (conn : ConnectionId) (capacity : Nat) (as : List Action) (es : List LogEntry)
    (m : Mailbox) : Prop where
  conn_eq : m.outbox.conn = conn
  capacity_eq : m.outbox.capacity = capacity
  length_le : m.outbox.queue.length ≤ capacity
  taker_eq : m.taker = if .dropReceiver ∈ as then .nobody else .owner
  closed_iff : m.outbox.closed = true ↔ .dropReceiver ∈ as
  released_iff : m.line.released = true ↔ .dropOutbox ∈ as
  frames : .dropReceiver ∉ as → accepted es = received es ++ m.outbox.queue
  kicked_iff : .dropOutbox ∉ as → (m.outbox.kicked = true ↔ Pending es)

namespace Direct

theorem nil (hnew : Mailbox.new? conn capacity = some m) : Direct conn capacity [] [] m := by
  unfold Mailbox.new? Line.new? Outbox.new? at hnew
  split at hnew
  · cases hnew
    exact ⟨rfl, rfl, Nat.zero_le _, rfl, by simp [outbox], by simp, fun _ => rfl,
      fun _ => iff_of_false Bool.false_ne_true not_pending_nil⟩
  · cases hnew

variable (h : Direct conn capacity as es m)

include h

theorem owner_iff : m.taker = .owner ↔ .dropReceiver ∉ as := by
  rw [h.taker_eq]
  by_cases hgone : .dropReceiver ∈ as <;> simp [hgone]

theorem released_eq (hheld : .dropOutbox ∉ as) : m.line.released = false :=
  Bool.eq_false_iff.mpr (mt h.released_iff.mp hheld)

theorem snoc (hmove : Moves m a answer m') :
    Direct conn capacity (as ++ [a]) (es ++ [.acted a answer]) m' := by
  have howner := h.owner_iff
  constructor
  · exact hmove.conn_eq.trans h.conn_eq
  · exact hmove.capacity_eq.trans h.capacity_eq
  · rw [← h.capacity_eq]
    exact hmove.length_le (h.capacity_eq ▸ h.length_le)
  · rw [hmove.taker_eq, h.taker_eq]
    by_cases ha : a = .dropReceiver
    · by_cases hgone : .dropReceiver ∈ as <;> simp [ha, hgone]
    · simp [ha, Ne.symm ha]
  · rw [hmove.closed_iff, howner, h.closed_iff, List.mem_append, List.mem_singleton,
      eq_comm (a := a)]
    refine ⟨Or.imp_right And.left, fun hgone => ?_⟩
    -- who has let go of the end before has it no more, and then it is closed already
    by_cases hbefore : Action.dropReceiver ∈ as
    · exact .inl hbefore
    · exact .inr ⟨hgone.resolve_left hbefore, hbefore⟩
  · rw [hmove.released_iff, h.released_iff, List.mem_append, List.mem_singleton, eq_comm (a := a)]
  · intro hkept
    rw [List.mem_append, List.mem_singleton, not_or] at hkept
    have hqueue := hmove.queue_eq (Ne.symm hkept.2)
    rw [accepted_append, received_append, h.frames hkept.1, accepted_cons, received_cons,
      accepted_nil, received_nil, List.append_nil, List.append_nil, List.append_assoc,
      List.append_assoc, hqueue]
  · intro hheld
    rw [List.mem_append, List.mem_singleton, not_or] at hheld
    rw [hmove.kicked_iff (h.released_eq hheld.1), h.kicked_iff hheld.1, pending_concat]

/-- Without a writer an action is all that happens. -/
theorem step_eq (checksum : Checksum) (a : Action) (ha : a ≠ .startWriter) :
    m.step checksum a = m.act a := by
  have htaker := (h.snoc (moves_act m ha)).taker_eq
  refine Prod.ext rfl (if_neg ?_)
  rw [htaker]
  split <;> simp

theorem run (checksum : Checksum) {as' : List Action} (hdirect : .startWriter ∉ as') :
    Direct conn capacity (as ++ as')
      (es ++ List.zipWith .acted as' (m.run checksum as').1) (m.run checksum as').2 := by
  induction as' generalizing as es m with
  | nil =>
    rw [List.append_nil]
    exact (List.append_nil es).symm ▸ h
  | cons a as' ih =>
    rw [List.mem_cons, not_or] at hdirect
    have hstep := h.step_eq checksum a (Ne.symm hdirect.1)
    have hnext := h.snoc (moves_act m (Ne.symm hdirect.1))
    have hrest := ih hnext hdirect.2
    rw [← hstep, List.append_assoc, List.append_assoc] at hrest
    exact hrest

end Direct

/-! ## The law of the queue -/

/-- What holds of a mailbox after the actions `as` with the log `es`. -/
structure QueueLaw (checksum : Checksum) (conn : ConnectionId) (capacity : Nat)
    (as : List Action) (es : List LogEntry) (m : Mailbox) : Prop where
  length_le : m.outbox.queue.length ≤ capacity
  /-- While there is a receiving end, what came out and what is queued is what was taken in, in
  order. -/
  in_order : .dropReceiver ∉ as → received es ++ m.outbox.queue = accepted es
  /-- A frame that is too large is refused and does nothing. -/
  push_large : .dropOutbox ∉ as → ∀ f : OutboundFrame,
    FrameHeader.maxPayload < f.payload.length →
      m.step checksum (.push f) = (.refused (.payloadTooLarge f.payload.length), m)
  /-- So is any other where the receiving end is gone, whether or not the queue was full then. -/
  push_closed : .dropOutbox ∉ as → .dropReceiver ∈ as → ∀ f : OutboundFrame,
    f.payload.length ≤ FrameHeader.maxPayload →
      m.step checksum (.push f) = (.refused (.closed conn), m)
  /-- A full queue stays as it is, and a kick is stored. -/
  push_full : .dropOutbox ∉ as → .dropReceiver ∉ as → m.outbox.queue.length = capacity →
    ∀ f : OutboundFrame, f.payload.length ≤ FrameHeader.maxPayload →
      m.step checksum (.push f) = (.refused (.overflow conn), m.withOutbox m.outbox.kick)
  /-- Otherwise the frame is queued, and nothing else changes. -/
  push_queued : .dropOutbox ∉ as → .dropReceiver ∉ as → m.outbox.queue.length ≠ capacity →
    ∀ f : OutboundFrame, f.payload.length ≤ FrameHeader.maxPayload →
      m.step checksum (.push f) =
        (.done, m.withOutbox { m.outbox with queue := m.outbox.queue ++ [f] })
  /-- A kick is reported if there was one since the last report. -/
  takeKick : .dropOutbox ∉ as →
    ∃ b, (m.step checksum .takeKick).1 = .flag b ∧ (b = true ↔ Pending es)

theorem Direct.law (h : Direct conn capacity as es m) :
    QueueLaw checksum conn capacity as es m where
  length_le := h.length_le
  in_order hkept := (h.frames hkept).symm
  push_large hheld f hlarge := by
    rw [h.step_eq checksum (.push f) (by simp)]
    exact act_push_of_error (h.released_eq hheld) (Outbox.push_of_large hlarge)
  push_closed hheld hgone f hfits := by
    have hclosed := h.closed_iff.mpr hgone
    rw [h.step_eq checksum (.push f) (by simp), ← h.conn_eq]
    exact act_push_of_error (h.released_eq hheld) (Outbox.push_of_closed hfits hclosed)
  push_full hheld hkept hfull f hfits := by
    have hopen := Bool.eq_false_iff.mpr (mt h.closed_iff.mp hkept)
    have hle : m.outbox.capacity ≤ m.outbox.queue.length :=
      Nat.le_of_eq (h.capacity_eq.trans hfull.symm)
    rw [h.step_eq checksum (.push f) (by simp), ← h.conn_eq]
    exact act_push_of_error (h.released_eq hheld) (Outbox.push_of_full hfits hopen hle)
  push_queued hheld hkept hroom f hfits := by
    have hopen := Bool.eq_false_iff.mpr (mt h.closed_iff.mp hkept)
    have hlt : m.outbox.queue.length < m.outbox.capacity := by
      rw [h.capacity_eq]
      exact Nat.lt_of_le_of_ne h.length_le hroom
    rw [h.step_eq checksum (.push f) (by simp)]
    exact act_push_of_ok (h.released_eq hheld) (Outbox.push_of_room hfits hopen hlt)
  takeKick hheld := by
    refine ⟨m.outbox.kicked, ?_, h.kicked_iff hheld⟩
    have hout : ¬ m.line.released = true := Bool.eq_false_iff.mp (h.released_eq hheld)
    rw [h.step_eq checksum .takeKick (by simp), act, if_neg hout]
    rfl

/-- **The law of the queue.** An outbox can have any capacity from one up to the longest queue there
can be. Whatever is done with it and its receiving end, without a writer, the law holds then. -/
theorem queue_law (checksum : Checksum) (conn : ConnectionId) (capacity : Nat) :
    ((Mailbox.new? conn capacity).isSome ↔ 0 < capacity ∧ capacity ≤ Outbox.maxCapacity) ∧
      ∀ m₀, Mailbox.new? conn capacity = some m₀ → ∀ as, .startWriter ∉ as →
        QueueLaw checksum conn capacity as
          (List.zipWith .acted as (m₀.run checksum as).1) (m₀.run checksum as).2 := by
  constructor
  · unfold Mailbox.new? Line.new? Outbox.new?
    split
    · exact iff_of_true rfl ‹_›
    · exact iff_of_false Bool.false_ne_true ‹_›
  · intro m₀ hnew as hdirect
    exact ((Direct.nil hnew).run checksum hdirect).law

/-- A queue of one frame is pushed to while it is full, before and after the kick is taken. -/
def fullTwice : List Action :=
  [.push (oneByte 1), .push (oneByte 2), .takeKick, .push (oneByte 3)]

/-- The first frame is still queued, and the second kick is stored. -/
theorem queue_law_fullTwice :
    ∃ m₀, Mailbox.new? ⟨7⟩ 1 = some m₀ ∧ .startWriter ∉ fullTwice ∧
      (m₀.run .wordSum fullTwice).1 =
        [.done, .refused (.overflow ⟨7⟩), .flag true, .refused (.overflow ⟨7⟩)] ∧
      (m₀.run .wordSum fullTwice).2.outbox.queue = [oneByte 1] ∧
      QueueLaw .wordSum ⟨7⟩ 1 fullTwice
        (List.zipWith .acted fullTwice (m₀.run .wordSum fullTwice).1)
        (m₀.run .wordSum fullTwice).2 :=
  ⟨_, rfl, by decide, rfl, rfl, (queue_law .wordSum ⟨7⟩ 1).2 _ rfl fullTwice (by decide)⟩

end GameLobby.Mailbox
