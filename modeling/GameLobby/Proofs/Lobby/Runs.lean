import GameLobby.Proofs.Lobby.Workload

/-!
# Runs

What comes in, and the jobs that wait, in any order. A step is a run in which the jobs are done
first come first served until there is none left (`runs_step`), so what holds of all runs does not
depend on that order. A queue gets longer at its end or loses frames at its front, so what an outbox
accepts can be seen in its queue (`Happening.accepted`).
-/

namespace GameLobby

/-- Something that happens to a lobby. -/
inductive Act where
  /-- Something comes in. -/
  | receive (i : Input)
  /-- A job that waits is done. -/
  | perform (job : Job)
  /-- Clients collect what they were sent. -/
  | collect
  deriving DecidableEq

/-- What came in, if anything did. -/
def Act.input? : Act → Option Input
  | .receive i => some i
  | _ => none

/-- An act, and the lobby before and after it. -/
structure Happening where
  before : Lobby
  act : Act
  after : Lobby
  deriving DecidableEq

namespace Lobby

/-- An act leads from the one lobby to the other. Any job that waits may be done, whatever the
gatekeeper is inclined to. -/
inductive Acts (rules : Rules) (l : Lobby) : Act → Lobby → Prop where
  | receive {i : Input} {l' : Lobby} (h : receive rules l i = some l') :
    Acts rules l (.receive i) l'
  | perform (gatekeeper : Gatekeeper) {job : Job} (h : job ∈ l.agenda) :
    Acts rules l (.perform job)
      (perform (rules.under gatekeeper) { l with agenda := l.agenda.erase job } job)
  | collect : Acts rules l .collect l.collected

/-- A job done under the gatekeeper of the rules. -/
theorem Acts.ruled {rules : Rules} {l : Lobby} {job : Job} (h : job ∈ l.agenda) :
    Acts rules l (.perform job) (Lobby.perform rules { l with agenda := l.agenda.erase job } job) :=
  .perform rules.gatekeeper h

/-- These acts lead from the one lobby to the other. -/
inductive Runs (rules : Rules) (l : Lobby) : List Happening → Lobby → Prop where
  | refl : Runs rules l [] l
  | act {hs : List Happening} {l' l'' : Lobby} {a : Act} (h : Runs rules l hs l')
    (ha : Acts rules l' a l'') : Runs rules l (hs ++ [⟨l', a, l''⟩]) l''

variable {rules : Rules} {l l' l'' : Lobby} {hs hs' : List Happening}

theorem Runs.trans (h : Runs rules l hs l') (h' : Runs rules l' hs' l'') :
    Runs rules l (hs ++ hs') l'' := by
  induction h' with
  | refl => rwa [List.append_nil]
  | act _ ha ih =>
    rw [← List.append_assoc]
    exact ih.act ha

/-- Doing jobs in order is a run. -/
theorem runs_settleUpTo (rules : Rules) (fuel : Nat) (l : Lobby) :
    ∃ hs, Runs rules l hs (settleUpTo rules fuel l) ∧ hs.filterMap (·.act.input?) = [] := by
  induction fuel generalizing l with
  | zero => exact ⟨[], .refl, rfl⟩
  | succ fuel ih =>
    unfold settleUpTo
    split
    · exact ⟨[], .refl, rfl⟩
    · rename_i job rest hagenda
      have herase : l.agenda.erase job = rest := by rw [hagenda, List.erase_cons_head]
      have hdone : Runs rules l [⟨l, .perform job, perform rules { l with agenda := rest } job⟩]
          (perform rules { l with agenda := rest } job) :=
        Runs.act .refl (herase ▸ Acts.ruled (hagenda ▸ List.mem_cons_self))
      obtain ⟨hs, hruns, hnone⟩ := ih (perform rules { l with agenda := rest } job)
      exact ⟨_ :: hs, hdone.trans hruns, hnone⟩

theorem Acts.staffed {a : Act} (h : Acts rules l a l') (hl : l.Staffed) : l'.Staffed := by
  cases h with
  | receive hi => exact hl.receive hi
  | perform gatekeeper hjob => exact (load_perform_lt (rules.under gatekeeper) hl hjob).1
  | collect => exact hl.collected

theorem Runs.staffed (h : Runs rules l hs l') (hl : l.Staffed) : l'.Staffed := by
  induction h with
  | refl => exact hl
  | act _ ha ih => exact ha.staffed ih

/-- Whatever waits gets done if nothing else comes in. -/
theorem exists_settled (rules : Rules) (hl : l.Staffed) :
    ∃ hs l', Runs rules l hs l' ∧ hs.filterMap (·.act.input?) = [] ∧ l'.agenda = [] := by
  obtain ⟨hs, hruns, hnone⟩ := runs_settleUpTo rules l.load l
  exact ⟨hs, _, hruns, hnone, (agenda_settleUpTo rules hl (Nat.le_refl _)).1⟩

/-- **Steps.** A step is a run with that input, and leaves no job to be done. -/
theorem runs_step {i : Input} {report : Report} (hstaffed : l.Staffed)
    (h : l.step rules i = some (report, l')) :
    ∃ hs, Runs rules l hs l' ∧ hs.filterMap (·.act.input?) = [i] ∧ l'.agenda = [] ∧ l'.Staffed := by
  obtain ⟨hagenda, hstaffed'⟩ := agenda_step hstaffed h
  obtain ⟨received, hreceived, heq⟩ := Option.map_eq_some_iff.mp h
  obtain ⟨-, rfl⟩ := Prod.mk.inj heq
  obtain ⟨hs, hruns, hnone⟩ := runs_settleUpTo rules received.workload received
  have hfirst : Runs rules l [⟨l, .receive i, received⟩] received := .act .refl (.receive hreceived)
  refine ⟨_, (hfirst.trans hruns).act .collect, ?_, hagenda, hstaffed'⟩
  rw [List.filterMap_append, List.filterMap_append, hnone]
  rfl

/-! ## Queues -/

/-- The frames that wait in the outbox of a connection. -/
def queued (l : Lobby) (conn : ConnectionId) : List OutboundFrame :=
  match l.lines.get? conn with
  | none => []
  | some line => line.outbox.queue

end Lobby

/-- The frames that the outbox of a connection accepts: those by which its queue gets longer. -/
def Happening.accepted (conn : ConnectionId) (h : Happening) : List OutboundFrame :=
  (h.after.queued conn).drop (h.before.queued conn).length

/-- The frames that the outbox of a connection accepts in the course of a run. -/
def Lobby.accepted (conn : ConnectionId) (hs : List Happening) : List OutboundFrame :=
  hs.flatMap (·.accepted conn)

end GameLobby
