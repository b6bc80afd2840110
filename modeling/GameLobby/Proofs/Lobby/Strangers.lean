import GameLobby.Proofs.Lobby.Acts
import GameLobby.Proofs.Lobby.Departures

/-!
# Strangers

A connection without an account is a stranger to the others: news goes to users who are logged in,
and answers go to those who asked. So acts for others leave its session, its queue and its jobs as
they are, and it gets no account by them (`Acts.spares`). If it has no session either, then acts of
its own change nothing that anybody could see (`Acts.absent`).
-/

namespace GameLobby

namespace Lobby

variable {rules : Rules} {l l' l'' : Lobby} {conn c : ConnectionId}

/-! ## Visitors and outboxes -/

/-- Sessions have their own visitors, and users get news at their own outboxes. -/
structure Regular (l : Lobby) : Prop where
  named : l.Named
  housed : l.registry.Housed

namespace Regular

theorem opened : Lobby.opened.Regular := ⟨⟨nofun⟩, nofun⟩

variable (h : l.Regular)

include h

theorem turn (rules : Rules) (e : Event) : (l.takeTurn (e.turn rules)).Regular :=
  ⟨h.named.congr (sessions_takeTurn ..), registry_takeTurn l _ ▸ e.housed_of_turn rules h.housed⟩

theorem push (conn : ConnectionId) (f : OutboundFrame) : (l.push conn f).2.Regular :=
  ⟨h.named.congr (sessions_push ..), registry_push l conn f ▸ h.housed⟩

theorem finish (conn : ConnectionId) (error : Option SessionError) :
    (l.finish conn error).Regular :=
  ⟨h.named.finish conn error, registry_finish l conn error ▸ h.housed⟩

end Regular

theorem Serves.regular (h : Serves rules conn l l') (hl : l.Regular) : l'.Regular := by
  induction h with
  | refl => exact hl
  | read _ rest ih => exact ⟨ih.named.modify conn _ fun _ => rfl, ih.housed⟩
  | turn _ _ f ih => exact ih.turn rules _
  | answer _ _ _ payload ih => exact ih.push conn _
  | greet _ ih => exact ⟨ih.named.modify conn _ fun _ => rfl, ih.housed⟩
  | finish _ error ih => exact ih.finish conn error

theorem Acts.regular {a : Act} (h : Acts rules l a l') (hl : l.Regular) : l'.Regular := by
  cases h with
  | receive hi => exact ⟨hl.named.receive hi, (quiet_receive hi).registry_eq ▸ hl.housed⟩
  | @perform gatekeeper job _ =>
    have htaken : Regular { l with agenda := l.agenda.erase job } := ⟨hl.named.congr rfl, hl.housed⟩
    cases job with
    | attend conn => exact (serves_attend (rules.under gatekeeper) _ conn).regular htaken
    | write conn =>
      have hquiet := quiet_write (rules.under gatekeeper)
        { l with agenda := l.agenda.erase (.write conn) } conn
      refine ⟨htaken.named.move (.write conn), ?_⟩
      show (write (rules.under gatekeeper) _ conn).registry.Housed
      rw [hquiet.registry_eq]
      exact hl.housed
    | depart conn =>
      have hturn := htaken.turn (rules.under gatekeeper) (.departure conn)
      refine ⟨hturn.named.congr (sessions_enqueue ..), ?_⟩
      show (Lobby.enqueue _ _).registry.Housed
      rw [registry_enqueue]
      exact hturn.housed
  | collect => exact ⟨hl.named.congr rfl, hl.housed⟩

/-! ## Acts for others -/

/-- The line of a connection is open and empty, and its writer has nothing to do. -/
def Idle (conn : ConnectionId) (l : Lobby) : Prop :=
  ∃ line, l.lines.get? conn = some line ∧ line.Idle

theorem Idle.queued_eq (h : l.Idle c) : l.queued c = [] := by
  obtain ⟨line, hline, hidle⟩ := h
  rw [queued_of_some hline, hidle.queue_nil]

/-- What is done while a connection without an account is left alone: it gets no account, and
nothing but others' jobs is taken off the agenda. -/
structure Spares (conn : ConnectionId) (l l' : Lobby) : Prop where
  account_none : l'.registry.account? conn = none
  session_eq : l'.sessions.get? conn = l.sessions.get? conn
  queued_eq : l'.queued conn = l.queued conn
  idle : l.Idle conn → l'.Idle conn
  attend_mem : .attend conn ∈ l.agenda → .attend conn ∈ l'.agenda
  depart_mem : .depart conn ∈ l'.agenda → .depart conn ∈ l.agenda

namespace Spares

theorem of_lookups (hnone : l'.registry.account? c = none)
    (hsession : l'.sessions.get? c = l.sessions.get? c)
    (hline : l'.lines.get? c = l.lines.get? c) (hagenda : l'.agenda = l.agenda) :
    Spares c l l' where
  account_none := hnone
  session_eq := hsession
  queued_eq := queued_of_get? hline
  idle := fun ⟨line, h, hidle⟩ => ⟨line, hline.trans h, hidle⟩
  attend_mem h := hagenda ▸ h
  depart_mem h := hagenda ▸ h

theorem refl (hnone : l.registry.account? c = none) : Spares c l l :=
  .of_lookups hnone rfl rfl rfl

theorem trans (h : Spares c l l') (h' : Spares c l' l'') : Spares c l l'' where
  account_none := h'.account_none
  session_eq := h'.session_eq.trans h.session_eq
  queued_eq := h'.queued_eq.trans h.queued_eq
  idle hl := h'.idle (h.idle hl)
  attend_mem hl := h'.attend_mem (h.attend_mem hl)
  depart_mem hl := h.depart_mem (h'.depart_mem hl)

/-- Another job is taken off the agenda. -/
theorem erase (hnone : l.registry.account? c = none) {job : Job} (hjob : job ≠ .attend c) :
    Spares c l { l with agenda := l.agenda.erase job } where
  account_none := hnone
  session_eq := rfl
  queued_eq := rfl
  idle h := h
  attend_mem h := (List.mem_erase_of_ne hjob.symm).mpr h
  depart_mem h := List.mem_of_mem_erase h

variable (h : Spares c l l')

include h

theorem enqueue {job : Job} (hjob : job ≠ .depart c) : Spares c l (l'.enqueue job) where
  account_none := by rw [registry_enqueue]; exact h.account_none
  session_eq := by rw [sessions_enqueue]; exact h.session_eq
  queued_eq := (queued_enqueue ..).trans h.queued_eq
  idle hl := by
    obtain ⟨line, hline, hidle⟩ := h.idle hl
    exact ⟨line, by rw [lines_enqueue]; exact hline, hidle⟩
  attend_mem hl := (mem_agenda_enqueue ..).mpr (.inl (h.attend_mem hl))
  depart_mem hl := h.depart_mem (mem_agenda_of_enqueue _ _ hl hjob.symm)

theorem modify (hne : c ≠ conn) (f : OpenSession → OpenSession) :
    Spares c l { l' with sessions := l'.sessions.modify conn f } :=
  h.trans (.of_lookups h.account_none (Table.get?_modify_of_ne _ _ hne) rfl rfl)

theorem finish (hne : c ≠ conn) (error : Option SessionError) :
    Spares c l (l'.finish conn error) := by
  unfold Lobby.finish
  split
  · have herased : Spares c l' { l' with
        sessions := l'.sessions.erase conn
        ended := l'.ended ++ [⟨conn, error⟩] } :=
      .of_lookups h.account_none (Table.get?_erase_of_ne _ hne) rfl rfl
    refine (h.trans herased).enqueue fun heq => ?_
    cases heq
    exact hne rfl
  · exact h

/-- The line of a connection changes, and stays idle if it is that one's own. -/
theorem modifyLine (conn : ConnectionId) {f : Line → Line}
    (hbox : ∀ line, (f line).outbox = line.outbox)
    (hidle : conn = c → ∀ line, line.Idle → (f line).Idle) :
    Spares c l { l' with lines := l'.lines.modify conn f } := by
  refine h.trans ⟨h.account_none, rfl, queued_modify l' conn hbox c, ?_, id, id⟩
  rintro ⟨line, hline, hline'⟩
  by_cases hc : c = conn
  · refine ⟨f line, ?_, hidle hc.symm line hline'⟩
    rw [Table.get?_modify, if_pos hc, hline]
    rfl
  · refine ⟨line, ?_, hline'⟩
    rw [Table.get?_modify_of_ne _ _ hc]
    exact hline

theorem updateLine (hne : c ≠ conn) (before after : Line) :
    Spares c l (l'.updateLine conn before after) := by
  have hinsert : Spares c l { l' with lines := l'.lines.insert conn after } :=
    h.trans (.of_lookups h.account_none rfl (Table.get?_insert_of_ne _ _ hne) rfl)
  unfold Lobby.updateLine
  dsimp only
  split
  · exact hinsert.enqueue nofun
  · exact hinsert

theorem push (hne : c ≠ conn) (f : OutboundFrame) : Spares c l (l'.push conn f).2 := by
  unfold Lobby.push
  split
  · exact h
  · split
    · exact (h.updateLine hne _ _).enqueue nofun
    · exact h.updateLine hne _ _

theorem deliver {offers : List Offer} (hoffers : ∀ o ∈ offers, o.recipient ≠ c) :
    Spares c l (l'.deliver offers) := by
  induction offers generalizing l' with
  | nil => exact h
  | cons o offers ih =>
    obtain ⟨ho, hoffers⟩ := List.forall_mem_cons.mp hoffers
    exact ih (h.push ho.symm _) hoffers

theorem turn (rules : Rules) (hl' : l'.Regular) {e : Event} (hne : e.conn ≠ c) :
    Spares c l (l'.takeTurn (e.turn rules)) := by
  obtain ⟨hoffers, hnone⟩ := e.stranger_turn rules hne hl'.housed h.account_none
  have hreg : Spares c l
      { l' with registry := (e.turn rules ⟨l'.registry, []⟩).registry } :=
    h.trans (.of_lookups hnone rfl rfl rfl)
  exact hreg.deliver hoffers

end Spares

theorem Serves.spares (h : Serves rules conn l l') (hne : conn ≠ c) (hl : l.Regular)
    (hnone : l.registry.account? c = none) : Spares c l l' := by
  induction h with
  | refl => exact .refl hnone
  | read _ rest ih => exact ih.modify hne.symm _
  | turn h hs f ih =>
    have hvisitor := (h.regular hl).named.conn_visitor _ _ hs
    exact ih.turn rules (h.regular hl) fun hc => hne (hvisitor.symm.trans hc)
  | answer _ _ _ payload ih => exact ih.push hne.symm _
  | greet _ ih => exact ih.modify hne.symm _
  | finish _ error ih => exact ih.finish hne.symm error

/-- The connection behind a line changes. -/
theorem spares_onLink (hnone : l.registry.account? c = none) (conn : ConnectionId)
    {f : Writer → Writer} (hf : ∀ w, (f w).held = w.held) : Spares c l (l.onLink conn f) := by
  have hlink : Spares c l { l with lines := l.lines.modify conn (·.onWriter f) } :=
    (Spares.refl hnone).modifyLine conn (fun _ => rfl) fun _ line h =>
      ⟨h.queue_nil, h.closed_eq, h.capacity_pos, (hf _).trans h.held_eq, h.released_eq⟩
  exact hlink.enqueue nofun

/-- A session gets more input, and it is another one or there is none. -/
theorem spares_feed (hnone : l.registry.account? c = none) {conn : ConnectionId}
    (hother : c ≠ conn ∨ l.sessions.get? conn = none) (more : Stream → Stream) :
    Spares c l (feed conn more l) := by
  have hfed : Spares c l { l with
      sessions := l.sessions.modify conn fun s => { s with input := more s.input } } := by
    refine .of_lookups hnone ?_ rfl rfl
    rw [Table.get?_modify]
    split
    · rename_i hc
      rw [hc, hother.resolve_left (not_not_intro hc)]
      rfl
    · rfl
  exact hfed.enqueue fun heq => by cases heq

/-- **Strangers.** Acts for others leave a connection without an account as it is. -/
theorem Acts.spares {a : Act} (h : Acts rules l a l') (hl : l.Regular)
    (hnone : l.registry.account? c = none) (ha : a.conn? ≠ some c) : Spares c l l' := by
  have hsame : Spares c l l := .refl hnone
  cases h with
  | @receive i _ hi =>
    cases takes_of_receive hi with
    | @connect v line heq =>
      have hne : c ≠ v.conn := fun hc => ha (heq ▸ congrArg some hc.symm)
      exact .of_lookups hnone (Table.get?_insert_of_ne _ _ hne) (Table.get?_insert_of_ne _ _ hne)
        rfl
    | feed hconn => exact spares_feed hnone (.inl fun hc => ha (hc ▸ hconn)) _
    | @link conn _ hheld => exact spares_onLink hnone conn hheld
    | nothing => exact hsame
  | @perform gatekeeper job _ =>
    have hne : c ≠ job.conn := fun hc => ha (congrArg some hc.symm)
    have htaken : Spares c l { l with agenda := l.agenda.erase job } :=
      .erase hnone fun heq => hne (heq ▸ rfl)
    have hregular : Regular { l with agenda := l.agenda.erase job } :=
      ⟨hl.named.congr rfl, hl.housed⟩
    cases job with
    | attend conn =>
      exact htaken.trans
        ((serves_attend (rules.under gatekeeper) _ conn).spares hne.symm hregular hnone)
    | write conn =>
      show Spares c l (write (rules.under gatekeeper) _ conn)
      unfold write
      split
      · exact htaken
      · exact htaken.updateLine hne _ _
    | depart conn =>
      have hturn := htaken.turn (rules.under gatekeeper) hregular (e := .departure conn) hne.symm
      have hreleased := hturn.modifyLine conn (f := Line.release) (fun _ => rfl) fun hc =>
        absurd hc.symm hne
      exact hreleased.enqueue nofun
  | collect =>
    refine ⟨hnone, rfl, queued_collected l c, ?_, id, id⟩
    rintro ⟨line, hline, h⟩
    refine ⟨line.collect.2, ?_, ⟨h.queue_nil, h.closed_eq, h.capacity_pos, h.held_eq,
      h.released_eq⟩⟩
    unfold collected
    rw [Table.get?_mapValues, hline]
    rfl

/-! ## Connections without a session -/

/-- A connection has no account and no session, and nothing waits in its queue. -/
structure Absent (conn : ConnectionId) (l : Lobby) : Prop where
  account_none : l.registry.account? conn = none
  session_none : l.sessions.get? conn = none
  queued_nil : l.queued conn = []

theorem Spares.absent (h : Spares c l l') (hl : l.Absent c) : l'.Absent c :=
  ⟨h.account_none, h.session_eq.trans hl.session_none, h.queued_eq.trans hl.queued_nil⟩

/-- A writer works for its own line. -/
theorem Absent.write (h : l.Absent c) (rules : Rules) :
    (write rules l c).Absent c ∧ (.depart c ∈ (write rules l c).agenda → .depart c ∈ l.agenda) := by
  refine ⟨⟨(quiet_write rules l c).registry_eq ▸ h.account_none, ?_, ?_⟩, ?_⟩
  · rw [sessions_write]
    exact h.session_none
  · exact List.suffix_nil.mp (h.queued_nil ▸ queued_write_suffix rules l c c)
  · unfold Lobby.write
    split
    · exact id
    · exact fun hd => mem_agenda_of_updateLine hd fun heq => by cases heq

/-- **Absence.** As long as a connection without a session does not connect, it stays as it is, and
what is done for it leaves the registry as it is. -/
theorem Acts.absent {a : Act} (h : Acts rules l a l') (hl : l.Regular) (hc : l.Absent c)
    (ha : ¬ a.Connects c) :
    l'.Absent c ∧ (a.conn? = some c → l'.registry = l.registry) ∧
      (.depart c ∈ l'.agenda → .depart c ∈ l.agenda) := by
  have hof : Spares c l l' → l'.registry = l.registry → l'.Absent c ∧
      (a.conn? = some c → l'.registry = l.registry) ∧
      (.depart c ∈ l'.agenda → .depart c ∈ l.agenda) := fun hs hreg =>
    ⟨hs.absent hc, fun _ => hreg, hs.depart_mem⟩
  by_cases hown : a.conn? = some c
  -- without a session there is nothing to feed, to attend to or to log out
  · cases h with
    | @receive i _ hi =>
      have hreg := (quiet_receive hi).registry_eq
      cases takes_of_receive hi with
      | connect heq =>
        subst heq
        exact absurd (Option.some.inj hown) ha
      | @feed conn hconn =>
        obtain rfl : c = conn := Option.some.inj (hown.symm.trans hconn)
        exact hof (spares_feed hc.account_none (.inr hc.session_none) _) hreg
      | @link conn _ hheld => exact hof (spares_onLink hc.account_none conn hheld) hreg
      | nothing => exact hof (.refl hc.account_none) hreg
    | @perform gatekeeper job _ =>
      let taken : Lobby := { l with agenda := l.agenda.erase job }
      have htaken : taken.Absent c := ⟨hc.account_none, hc.session_none, hc.queued_nil⟩
      cases job with
      | attend conn =>
        obtain rfl : c = conn := (Option.some.inj hown).symm
        let l' := attend (rules.under gatekeeper) taken c
        show l'.Absent c ∧ (_ → l'.registry = _) ∧ (_ ∈ l'.agenda → _)
        rw [show l' = taken from attend_of_none _ htaken.session_none]
        exact ⟨htaken, fun _ => rfl, List.mem_of_mem_erase⟩
      | write conn =>
        obtain rfl : c = conn := (Option.some.inj hown).symm
        obtain ⟨hwritten, hdepart⟩ := htaken.write (rules.under gatekeeper)
        exact ⟨hwritten, fun _ => (quiet_write _ taken c).registry_eq, fun hd =>
          List.mem_of_mem_erase (hdepart hd)⟩
      | depart conn =>
        obtain rfl : c = conn := (Option.some.inj hown).symm
        have hturn : taken.takeTurn (Session.depart (rules.under gatekeeper) c) = taken :=
          takeTurn_of_eq (Session.depart_of_none _ htaken.account_none [])
        let l' := depart (rules.under gatekeeper) taken c
        have hdeparted : l' =
            Lobby.enqueue { taken with lines := taken.lines.modify c .release } (.write c) := by
          show depart _ taken c = _
          rw [depart, hturn]
        show l'.Absent c ∧ (_ → l'.registry = _) ∧ (_ ∈ l'.agenda → _)
        rw [hdeparted, registry_enqueue]
        refine ⟨⟨?_, ?_, ?_⟩, fun _ => rfl, fun hd => ?_⟩
        · rw [registry_enqueue]
          exact hc.account_none
        · rw [sessions_enqueue]
          exact hc.session_none
        · rw [queued_enqueue]
          exact (queued_modify taken c (f := Line.release) (fun _ => rfl) c).trans hc.queued_nil
        · exact List.mem_of_mem_erase (mem_agenda_of_enqueue _ _ hd fun heq => by cases heq)
    | collect => cases hown
  · have hs := h.spares hl hc.account_none hown
    exact ⟨hs.absent hc, fun h => absurd h hown, hs.depart_mem⟩

end Lobby

end GameLobby
