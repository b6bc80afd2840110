import GameLobby.Outbox.Mailbox

/-!
# Writers step by step

`Line.write` is all the work of a writer that nothing interrupts. In between others push, and the
connection stalls or breaks, so here the work is cut into steps (`Line.advance?`): a writer takes a
frame out of the queue, writes some bytes of the frame it holds or the last of them, or loses it,
and stops. How many bytes a connection takes in one go is up to the connection. Steps made until
there is none left come to `Line.write` however the bytes are cut (`works_write`, `write_of_works`).

`Mailbox.Runs` are the runs of a mailbox in which steps of the writer and actions of the owners
follow each other in any order, with a log of what happened. The runs of `Mailbox.run`, in which the
writer makes all its steps after each action, are among them (`runs_run`).
-/

namespace GameLobby

/-- One step of a writer. -/
inductive Writer.Step where
  /-- It takes a frame out of the queue. -/
  | took (f : OutboundFrame)
  /-- It writes these bytes of the frame it holds, and more of them are to come. -/
  | began (b : Bytes)
  /-- It writes the last bytes of the frame it holds. -/
  | wrote (f : OutboundFrame)
  /-- It fails to write the rest of the frame it holds. -/
  | lost (f : OutboundFrame)
  /-- There is nothing to write, and there never will be. -/
  | stopped
  deriving DecidableEq, Repr

namespace Line

/-- The next step of a writer and the line after it, if the writer has not ended and need not wait.
The connection takes at most `most` bytes in this step, if it flows. -/
def advance? (checksum : Checksum) (most : Nat) (l : Line) : Option (Writer.Step × Line) :=
  if l.writer.shut then none
  else
    match l.writer.held with
    | some u =>
      match l.writer.link with
      | .flowing =>
        if (u.left checksum).length ≤ most then
          let written := l.writer.written ++ u.left checksum
          some (.wrote u.frame,
            { l with writer := { l.writer with held := none, written := written } })
        else if most = 0 then none
        else
          let written := l.writer.written ++ (u.left checksum).take most
          let held := some (u.advance most)
          some (.began ((u.left checksum).take most),
            { l with writer := { l.writer with held := held, written := written } })
      | .stalled => none
      | .broken =>
        some (.lost u.frame,
          { l with
            outbox := l.outbox.close.kick
            writer := { l.writer with held := none, shut := true } })
    | none =>
      match l.outbox.queue with
      | f :: rest =>
        some (.took f,
          { l with
            outbox := { l.outbox with queue := rest }
            writer := { l.writer with held := some (.fresh f) } })
      | [] =>
        if l.released then
          some (.stopped,
            { l with outbox := l.outbox.close, writer := { l.writer with shut := true } })
        else none

/-- The writer of a line makes steps, and in each the connection takes as many bytes as it likes. -/
inductive Works (checksum : Checksum) : Line → List Writer.Step → Line → Prop where
  | nil {l : Line} : Works checksum l [] l
  | cons {l l' l'' : Line} {s : Writer.Step} {ss : List Writer.Step} {most : Nat}
    (h : l.advance? checksum most = some (s, l')) (hs : Works checksum l' ss l'') :
    Works checksum l (s :: ss) l''

/-- The writer has ended, or waits for the connection or for a frame. -/
def Rests (l : Line) : Prop :=
  l.writer.shut = true ∨ l.writer.held.isSome ∧ l.writer.link = .stalled ∨
    l.writer.held = none ∧ l.outbox.queue = [] ∧ l.released = false

variable {checksum : Checksum} {most : Nat} {l l' : Line} {s : Writer.Step}

/-! ## All steps of a writer -/

/-- The steps that a step can be. -/
theorem advance?_cases (h : l.advance? checksum most = some (s, l')) :
    l.writer.shut = false ∧
      ((∃ u, l.writer.held = some u ∧ l.writer.link = .flowing ∧ s = .wrote u.frame ∧
          l' = { l with
            writer := { l.writer with
              held := none
              written := l.writer.written ++ u.left checksum } }) ∨
        (∃ u, l.writer.held = some u ∧ l.writer.link = .flowing ∧
          0 < most ∧ most < (u.left checksum).length ∧ s = .began ((u.left checksum).take most) ∧
          l' = { l with
            writer := { l.writer with
              held := some (u.advance most)
              written := l.writer.written ++ (u.left checksum).take most } }) ∨
        (∃ u, l.writer.held = some u ∧ l.writer.link = .broken ∧ s = .lost u.frame ∧
          l' = { l with
            outbox := l.outbox.close.kick
            writer := { l.writer with held := none, shut := true } }) ∨
        (∃ f rest, l.writer.held = none ∧ l.outbox.queue = f :: rest ∧ s = .took f ∧
          l' = { l with
            outbox := { l.outbox with queue := rest }
            writer := { l.writer with held := some (.fresh f) } }) ∨
        l.writer.held = none ∧ l.outbox.queue = [] ∧ l.released = true ∧ s = .stopped ∧
          l' = { l with outbox := l.outbox.close, writer := { l.writer with shut := true } }) := by
  unfold advance? at h
  split at h
  · cases h
  rename_i hshut
  refine ⟨Bool.not_eq_true _ ▸ hshut, ?_⟩
  split at h
  · rename_i u hheld
    split at h
    · rename_i hlink
      split at h
      · cases h
        exact .inl ⟨u, hheld, hlink, rfl, rfl⟩
      · rename_i hshort
        split at h
        · cases h
        · rename_i hmost
          cases h
          refine .inr (.inl ⟨u, hheld, hlink, Nat.pos_of_ne_zero hmost, ?_, rfl, rfl⟩)
          exact Nat.not_le.mp hshort
    · cases h
    · rename_i hlink
      cases h
      exact .inr (.inr (.inl ⟨u, hheld, hlink, rfl, rfl⟩))
  · rename_i hheld
    split at h
    · rename_i f rest hqueue
      cases h
      exact .inr (.inr (.inr (.inl ⟨f, rest, hheld, hqueue, rfl, rfl⟩)))
    · rename_i hqueue
      split at h
      · rename_i hreleased
        cases h
        exact .inr (.inr (.inr (.inr ⟨hheld, hqueue, hreleased, rfl, rfl⟩)))
      · cases h

/-- A step changes neither how the connection takes bytes nor whether anybody can push. -/
theorem link_advance? (h : l.advance? checksum most = some (s, l')) :
    l'.writer.link = l.writer.link ∧ l'.released = l.released := by
  obtain ⟨-, ⟨u, -, -, -, rfl⟩ | ⟨u, -, -, -, -, -, rfl⟩ | ⟨u, -, -, -, rfl⟩ |
    ⟨f, rest, -, -, -, rfl⟩ | ⟨-, -, -, -, rfl⟩⟩ := advance?_cases h
  all_goals exact ⟨rfl, rfl⟩

/-- A step is part of the work. -/
theorem write_of_advance? (h : l.advance? checksum most = some (s, l')) :
    l'.write checksum = l.write checksum := by
  obtain ⟨hshut, hcases⟩ := advance?_cases h
  obtain ⟨⟨conn, capacity, queue, closed, kicked⟩, ⟨link, held, written, shut⟩, released⟩ := l
  dsimp only at hshut hcases
  subst hshut
  rcases hcases with ⟨u, rfl, rfl, -, rfl⟩ | ⟨u, rfl, rfl, -, -, -, rfl⟩ | ⟨u, rfl, rfl, -, rfl⟩ |
    ⟨f, rest, rfl, rfl, -, rfl⟩ | ⟨rfl, rfl, rfl, -, rfl⟩
  · cases released <;> cases queue <;>
      simp [write, Writer.run, Writer.pending, Outbox.close]
  · have hcut : ∀ bs : Bytes,
        (u.left checksum).take most ++ ((u.advance most).left checksum ++ bs) =
          u.left checksum ++ bs := fun bs => by
      rw [Underway.left_advance, ← List.append_assoc, List.take_append_drop]
    cases released <;> simp [write, Writer.run, Writer.pending, hcut]
  · simp [write, Writer.run, Writer.pending, Outbox.close, Outbox.kick]
  · cases link <;> rfl
  · rfl

/-- A writer makes no step exactly if it rests. -/
theorem advance?_eq_none_iff (hmost : 0 < most) : l.advance? checksum most = none ↔ l.Rests := by
  obtain ⟨⟨conn, capacity, queue, closed, kicked⟩, ⟨link, held, written, shut⟩, released⟩ := l
  cases shut with
  | true => simp [advance?, Rests]
  | false =>
    cases held with
    | some u =>
      cases link with
      | flowing =>
        by_cases hshort : (u.left checksum).length ≤ most
        · simp [advance?, Rests, hshort]
        · simp [advance?, Rests, hshort, Nat.ne_of_gt hmost]
      | stalled => simp [advance?, Rests]
      | broken => simp [advance?, Rests]
    | none => cases queue <;> cases released <;> simp [advance?, Rests]

/-- A writer that rests has nothing to do. -/
theorem Rests.write_eq (h : l.Rests) : l.write checksum = l := by
  obtain ⟨⟨conn, capacity, queue, closed, kicked⟩, ⟨link, held, written, shut⟩, released⟩ := l
  rcases h with hshut | ⟨hheld, hlink⟩ | ⟨hheld, hqueue, hreleased⟩
  · cases hshut
    rfl
  · obtain ⟨u, hheld⟩ := Option.isSome_iff_exists.mp hheld
    cases hheld
    cases hlink
    cases shut <;> simp [write, Writer.run, Writer.pending, Function.comp_def]
  · cases hheld
    cases hqueue
    cases hreleased
    cases shut <;> rfl

@[simp] theorem released_write : (l.write checksum).released = l.released := rfl

@[simp] theorem link_write : (l.write checksum).writer.link = l.writer.link := by
  show (l.writer.run checksum l.released l.outbox).2.link = l.writer.link
  unfold Writer.run
  split
  · rfl
  · split <;> try split
    all_goals rfl

/-- How many steps a writer can still make at most: one to take each frame and one to be done with
it, one for each byte, and one to stop. -/
def stepsLeft (checksum : Checksum) (l : Line) : Nat :=
  ((l.writer.pending l.outbox).flatMap (·.left checksum)).length +
    (2 * l.outbox.queue.length + l.writer.inHand.length) + if l.writer.shut then 0 else 1

theorem stepsLeft_advance? (h : l.advance? checksum most = some (s, l')) :
    l'.stepsLeft checksum < l.stepsLeft checksum := by
  obtain ⟨hshut, ⟨u, hheld, -, -, rfl⟩ | ⟨u, hheld, -, hmost, hlt, -, rfl⟩ | ⟨u, hheld, -, -, rfl⟩ |
    ⟨f, rest, hheld, hqueue, -, rfl⟩ | ⟨hheld, hqueue, -, -, rfl⟩⟩ := advance?_cases h
  · simp [stepsLeft, Writer.pending, Writer.inHand, hheld, hshut]
    omega
  · simp [stepsLeft, Writer.pending, Writer.inHand, hheld, hshut, Underway.left_advance]
    omega
  · simp [stepsLeft, Writer.pending, Writer.inHand, Outbox.close, Outbox.kick, hheld, hshut]
  · simp [stepsLeft, Writer.pending, Writer.inHand, hheld, hqueue, hshut]
    omega
  · simp [stepsLeft, Writer.pending, Writer.inHand, Outbox.close, hheld, hqueue, hshut]

theorem Works.write_eq {ss : List Writer.Step} (h : Works checksum l ss l') :
    l'.write checksum = l.write checksum := by
  induction h with
  | nil => rfl
  | cons hstep _ ih => exact ih.trans (write_of_advance? hstep)

/-- **All steps.** The work of a writer that nothing interrupts is made of steps, however many bytes
the connection takes in one go, and the writer rests after it. -/
theorem works_write (checksum : Checksum) (hmost : 0 < most) (l : Line) :
    ∃ ss, Works checksum l ss (l.write checksum) ∧ (l.write checksum).Rests := by
  cases h : l.advance? checksum most with
  | none =>
    have hrests := (advance?_eq_none_iff hmost).mp h
    rw [hrests.write_eq]
    exact ⟨[], .nil, hrests⟩
  | some next =>
    obtain ⟨s, l'⟩ := next
    have hless := stepsLeft_advance? h
    obtain ⟨ss, hss, hrests⟩ := works_write checksum hmost l'
    rw [write_of_advance? h] at hss hrests
    exact ⟨s :: ss, .cons h hss, hrests⟩
termination_by l.stepsLeft checksum

end Line

/-! ## Runs of mailboxes -/

namespace Mailbox

/-- What happens to a mailbox. -/
inductive LogEntry where
  /-- An owner does something and is answered. -/
  | acted (a : Action) (answer : Answer)
  /-- The writer makes a step. -/
  | worked (s : Writer.Step)
  deriving DecidableEq, Repr

/-- One thing happens to a mailbox: an action, without the writer's work after it, or one step of
the writer. -/
inductive Does (checksum : Checksum) (m : Mailbox) : LogEntry → Mailbox → Prop where
  | act (a : Action) : Does checksum m (.acted a (m.act a).1) (m.act a).2
  | work (most : Nat) {s : Writer.Step} {line : Line} (htaker : m.taker = .writer)
    (h : m.line.advance? checksum most = some (s, line)) :
    Does checksum m (.worked s) { m with line := line }

/-- The runs of a mailbox, each with its log: actions and steps of the writer in any order. -/
inductive Runs (checksum : Checksum) : Mailbox → List LogEntry → Mailbox → Prop where
  | nil {m : Mailbox} : Runs checksum m [] m
  | cons {m m' m'' : Mailbox} {e : LogEntry} {es : List LogEntry} (h : Does checksum m e m')
    (hs : Runs checksum m' es m'') : Runs checksum m (e :: es) m''

variable {checksum : Checksum}

namespace Runs

variable {m m' m'' : Mailbox} {es es' : List LogEntry}

theorem append (h : Runs checksum m es m') (h' : Runs checksum m' es' m'') :
    Runs checksum m (es ++ es') m'' := by
  induction h with
  | nil => exact h'
  | cons hd _ ih => exact .cons hd (ih h')

/-- A run can be cut anywhere. -/
theorem exists_of_append (h : Runs checksum m (es ++ es') m'') :
    ∃ m', Runs checksum m es m' ∧ Runs checksum m' es' m'' := by
  induction es generalizing m with
  | nil => exact ⟨m, .nil, h⟩
  | cons e es ih =>
    cases h with
    | cons hd hs =>
      obtain ⟨m', hfirst, hrest⟩ := ih hs
      exact ⟨m', .cons hd hfirst, hrest⟩

end Runs

/-- Steps of a writer are a run. -/
theorem runs_of_works {m : Mailbox} (htaker : m.taker = .writer) {ss : List Writer.Step}
    {line : Line} (h : Line.Works checksum m.line ss line) :
    Runs checksum m (ss.map .worked) { m with line := line } := by
  obtain ⟨l, taker⟩ := m
  cases htaker
  change Line.Works checksum l ss line at h
  induction h with
  | nil => exact .nil
  | cons hadvance _ ih => exact .cons (.work _ rfl hadvance) ih

/-- The writer's work is a run. -/
theorem runs_settle (checksum : Checksum) (m : Mailbox) :
    ∃ ss : List Writer.Step, Runs checksum m (ss.map .worked) (m.settle checksum) := by
  unfold settle
  split
  · rename_i htaker
    obtain ⟨ss, hworks, -⟩ := Line.works_write checksum Nat.one_pos m.line
    exact ⟨ss, runs_of_works htaker hworks⟩
  · exact ⟨[], .nil⟩

/-- The action in a log entry, and its answer. -/
def LogEntry.action? : LogEntry → Option (Action × Answer)
  | .acted a answer => some (a, answer)
  | .worked _ => none

/-- **Runs.** Actions after each of which the writer works as far as it can are a run. -/
theorem runs_run (checksum : Checksum) (m : Mailbox) (as : List Action) :
    ∃ es, Runs checksum m es (m.run checksum as).2 ∧
      es.filterMap LogEntry.action? = as.zip (m.run checksum as).1 := by
  induction as generalizing m with
  | nil => exact ⟨[], .nil, rfl⟩
  | cons a as ih =>
    obtain ⟨ss, hsettled⟩ := runs_settle checksum (m.act a).2
    obtain ⟨es, hrest, hlog⟩ := ih (m.step checksum a).2
    refine ⟨.acted a (m.act a).1 :: (ss.map .worked ++ es),
      .cons (.act a) (hsettled.append hrest), ?_⟩
    have hsteps : (ss.map LogEntry.worked).filterMap LogEntry.action? = [] := by
      simp [List.filterMap_map, Function.comp_def, LogEntry.action?]
    show (a, (m.act a).1) :: (ss.map LogEntry.worked ++ es).filterMap LogEntry.action? = _
    rw [List.filterMap_append, hsteps, hlog]
    rfl

end Mailbox

end GameLobby
