import GameLobby.Proofs.Lobby.Moves

/-!
# The work of a step comes to an end

`Lobby.load` bounds the jobs that a lobby still has to do. Sessions that have not ended, lines that
have not been kicked and jobs other than writers' are chores: work turns one into another and makes
no new ones. Each chore may give every writer something to do, and a writer's job gives none to
others. So each job that is done lowers the load (`load_perform_lt`), and `Lobby.workload` is enough
for all of them: after every step the agenda is empty (`agenda_step`).
-/

namespace GameLobby

/-- A job that may give writers something to do. -/
def Job.isChore : Job → Bool
  | .attend _ | .depart _ => true
  | .write _ => false

/-- A writer's job for a connection that is not among some. -/
def Job.isStray (conns : List ConnectionId) : Job → Bool
  | .write conn => decide (conn ∉ conns)
  | _ => false

namespace Lobby

/-! ## Loads -/

variable (l : Lobby)

/-- The lines that have not been kicked. -/
def unkicked : Nat :=
  l.lines.keys.countP fun conn => !l.isKicked conn

/-- Jobs other than writers', and what can still become one. -/
def chores : Nat :=
  l.agenda.countP Job.isChore + l.unkicked + l.sessions.size

/-- The writers that have to look. -/
def writes : Nat :=
  l.lines.keys.countP fun conn => decide (Job.write conn ∈ l.agenda)

/-- Writers' jobs where there is no line. -/
def strays : Nat :=
  l.agenda.countP (Job.isStray l.lines.keys)

/-- No fewer jobs than there will be. -/
def load : Nat :=
  l.chores * (l.lines.size + 1) + l.writes + l.strays

/-- Sessions have lines, those that ended and have to depart included, and no job waits twice. -/
structure Staffed : Prop where
  agenda_nodup : l.agenda.Nodup
  line_of_session : ∀ conn ∈ l.sessions.keys, conn ∈ l.lines.keys
  line_of_depart : ∀ conn, .depart conn ∈ l.agenda → conn ∈ l.lines.keys

/-- What is done in the course of a job: lines stay, and chores and stray jobs are not added. -/
structure Keeps (l l' : Lobby) : Prop where
  staffed : l'.Staffed
  keys_eq : l'.lines.keys = l.lines.keys
  chores_le : l'.chores ≤ l.chores
  strays_le : l'.strays ≤ l.strays

variable {l} {l' l'' : Lobby}

namespace Keeps

theorem refl (h : l.Staffed) : l.Keeps l := ⟨h, rfl, Nat.le_refl _, Nat.le_refl _⟩

theorem trans (h : l.Keeps l') (h' : l'.Keeps l'') : l.Keeps l'' where
  staffed := h'.staffed
  keys_eq := h'.keys_eq.trans h.keys_eq
  chores_le := Nat.le_trans h'.chores_le h.chores_le
  strays_le := Nat.le_trans h'.strays_le h.strays_le

end Keeps

/-! ## The agenda -/

section Agenda

variable (l) (job : Job)

theorem agenda_enqueue :
    (l.enqueue job).agenda = l.agenda ∨
      job ∉ l.agenda ∧ (l.enqueue job).agenda = l.agenda ++ [job] := by
  unfold enqueue
  split
  · exact .inl rfl
  · rename_i h
    exact .inr ⟨h, rfl⟩

theorem mem_agenda_enqueue {job' : Job} :
    job' ∈ (l.enqueue job).agenda ↔ job' ∈ l.agenda ∨ job' = job := by
  unfold enqueue
  split
  · rename_i h
    exact ⟨.inl, fun hj => hj.elim (·) fun heq => heq ▸ h⟩
  · simp

/-- No other job is put on the agenda. -/
theorem mem_agenda_of_enqueue {job' : Job} (h : job' ∈ (l.enqueue job).agenda)
    (hne : job' ≠ job) : job' ∈ l.agenda :=
  ((l.mem_agenda_enqueue job).mp h).resolve_right hne

theorem countP_agenda_enqueue_le (p : Job → Bool) :
    (l.enqueue job).agenda.countP p ≤ l.agenda.countP p + (p job).toNat := by
  rcases l.agenda_enqueue job with heq | ⟨-, heq⟩ <;> rw [heq]
  · exact Nat.le_add_right ..
  · rw [List.countP_append, List.countP_singleton]
    cases p job <;> simp

theorem chores_enqueue_le : (l.enqueue job).chores ≤ l.chores + job.isChore.toNat := by
  have hcount := l.countP_agenda_enqueue_le job Job.isChore
  unfold chores unkicked isKicked
  rw [lines_enqueue, sessions_enqueue]
  omega

theorem strays_enqueue_le :
    (l.enqueue job).strays ≤ l.strays + (job.isStray l.lines.keys).toNat := by
  unfold strays
  rw [lines_enqueue]
  exact l.countP_agenda_enqueue_le job _

variable {l} {job}

theorem mem_agenda_of_updateLine {conn : ConnectionId} {before after : Line}
    (h : job ∈ (l.updateLine conn before after).agenda) (hne : job ≠ .attend conn) :
    job ∈ l.agenda := by
  unfold Lobby.updateLine at h
  dsimp only at h
  split at h
  · have hmem := mem_agenda_of_enqueue _ _ h hne
    exact hmem
  · exact h

theorem Staffed.enqueue (h : l.Staffed)
    (hjob : ∀ conn, job = .depart conn → conn ∈ l.lines.keys) : (l.enqueue job).Staffed where
  agenda_nodup := by
    rcases l.agenda_enqueue job with heq | ⟨hnot, heq⟩ <;> rw [heq]
    · exact h.agenda_nodup
    · refine List.nodup_append.mpr ⟨h.agenda_nodup, by simp, fun a ha b hb hab => ?_⟩
      exact hnot (List.mem_singleton.mp hb ▸ hab ▸ ha)
  line_of_session conn hconn := by
    rw [sessions_enqueue] at hconn
    rw [lines_enqueue]
    exact h.line_of_session conn hconn
  line_of_depart conn hconn := by
    rw [lines_enqueue]
    rcases (l.mem_agenda_enqueue job).mp hconn with hconn | hconn
    · exact h.line_of_depart conn hconn
    · exact hjob conn hconn.symm

end Agenda

/-! ## What is done in the course of a job -/

/-- Something that takes away as many chores as the job that it brings up. -/
theorem Keeps.enqueue (h : l.Keeps l') {job : Job}
    (hdepart : ∀ conn, job = .depart conn → conn ∈ l.lines.keys)
    (hchores : l'.chores + job.isChore.toNat ≤ l.chores)
    (hstray : job.isStray l.lines.keys = false) : l.Keeps (l'.enqueue job) where
  staffed := h.staffed.enqueue fun conn hjob => h.keys_eq ▸ hdepart conn hjob
  keys_eq := (congrArg Table.keys (lines_enqueue l' job)).trans h.keys_eq
  chores_le := Nat.le_trans (chores_enqueue_le l' job) hchores
  strays_le := by
    have hle := strays_enqueue_le l' job
    rw [h.keys_eq, hstray] at hle
    exact Nat.le_trans hle h.strays_le

/-- A writer has to look whose line is there. -/
theorem Keeps.enqueue_write (h : l.Keeps l') {conn : ConnectionId} (hmem : conn ∈ l.lines.keys) :
    l.Keeps (l'.enqueue (.write conn)) :=
  h.enqueue nofun h.chores_le (by simp [Job.isStray, hmem])

theorem isKicked_insert (conn c : ConnectionId) (line : Line) :
    Lobby.isKicked { l with lines := l.lines.insert conn line } c =
      if c = conn then line.outbox.kicked else l.isKicked c := by
  unfold isKicked
  rw [Table.get?_insert]
  split <;> rfl

/-- A line changes, and keeps a kick that it has. -/
theorem Keeps.updateLine (h : l.Staffed) {conn : ConnectionId} {before after : Line}
    (hline : l.lines.get? conn = some before)
    (hkick : before.outbox.kicked → after.outbox.kicked) :
    l.Keeps (l.updateLine conn before after) := by
  have hmem : conn ∈ l.lines.keys := Table.mem_keys_iff.mpr (hline ▸ rfl)
  have hbefore : l.isKicked conn = before.outbox.kicked := by
    unfold isKicked
    rw [hline]
    rfl
  let changed : Lobby := { l with lines := l.lines.insert conn after }
  have hkeys : changed.lines.keys = l.lines.keys := Table.keys_insert_of_mem hmem after
  have hle : ∀ c ∈ l.lines.keys, !changed.isKicked c → !l.isKicked c := by
    intro c _ hc
    rw [isKicked_insert] at hc
    split at hc
    · rename_i heq
      rw [heq, hbefore]
      cases hb : before.outbox.kicked with
      | false => rfl
      | true => rw [hkick hb] at hc; cases hc
    · exact hc
  have hcount : changed.unkicked = l.lines.keys.countP fun c => !changed.isKicked c := by
    unfold unkicked
    rw [hkeys]
  have hchores : ∀ n, changed.unkicked + n ≤ l.unkicked → changed.chores + n ≤ l.chores := by
    intro n hn
    show l.agenda.countP Job.isChore + changed.unkicked + l.sessions.size + n ≤
      l.agenda.countP Job.isChore + l.unkicked + l.sessions.size
    omega
  have hsame : l.Keeps changed := by
    refine ⟨⟨h.agenda_nodup, fun c hc => ?_, fun c hc => ?_⟩, hkeys, ?_, Nat.le_of_eq ?_⟩
    · exact hkeys ▸ h.line_of_session c hc
    · exact hkeys ▸ h.line_of_depart c hc
    · exact hchores 0 (hcount ▸ List.countP_mono_left hle)
    · show l.agenda.countP (Job.isStray changed.lines.keys) = _
      rw [hkeys]
      rfl
  unfold Lobby.updateLine
  dsimp only
  split
  · rename_i hnew
    obtain ⟨hafter, hwas⟩ := Bool.and_eq_true_iff.mp hnew
    refine hsame.enqueue nofun (hchores 1 ?_) rfl
    rw [hcount]
    refine countP_lt_of_mem hle hmem ?_ ?_
    · rw [hbefore]
      exact hwas
    · rw [isKicked_insert, if_pos rfl, hafter]
      rfl
  · exact hsame

theorem Outbox.kicked_push {o : Outbox} (h : o.kicked) (f : OutboundFrame) :
    (o.push f).2.kicked := by
  unfold Outbox.push
  split
  · exact h
  · split
    · exact h
    · split
      · rfl
      · exact h

theorem Keeps.push (h : l.Staffed) (conn : ConnectionId) (f : OutboundFrame) :
    l.Keeps (l.push conn f).2 := by
  unfold Lobby.push
  split
  · exact .refl h
  rename_i line hline
  have hmem : conn ∈ l.lines.keys := Table.mem_keys_iff.mpr (hline ▸ rfl)
  have hupdate : ∀ line', (line.push f).2 = line' → l.Keeps (l.updateLine conn line line') := by
    rintro _ rfl
    exact .updateLine h hline fun hk => Outbox.kicked_push hk f
  split
  · rename_i line' hpush
    exact (hupdate line' (congrArg Prod.snd hpush)).enqueue_write hmem
  · rename_i e line' hpush
    exact hupdate line' (congrArg Prod.snd hpush)

/-- The registry does not count. -/
theorem Keeps.withRegistry (h : l.Staffed) (reg : Registry) :
    l.Keeps { l with registry := reg } :=
  ⟨⟨h.agenda_nodup, h.line_of_session, h.line_of_depart⟩, rfl, Nat.le_refl _, Nat.le_refl _⟩

theorem Keeps.takeTurn (h : l.Staffed) (turn : Turn → Turn) : l.Keeps (l.takeTurn turn) := by
  have hdeliver : ∀ (offers : List Offer) (l : Lobby), l.Staffed → l.Keeps (l.deliver offers) := by
    intro offers
    induction offers with
    | nil => exact fun l h => .refl h
    | cons o offers ih =>
      intro l h
      have hpush := Keeps.push h o.recipient o.message.frame
      exact hpush.trans (ih _ hpush.staffed)
  have hreg := Keeps.withRegistry h (turn ⟨l.registry, []⟩).registry
  exact hreg.trans (hdeliver _ _ hreg.staffed)

theorem Keeps.finish (h : l.Staffed) (conn : ConnectionId) (error : Option SessionError) :
    l.Keeps (l.finish conn error) := by
  unfold Lobby.finish
  split
  · rename_i hsession
    have hconn : conn ∈ l.sessions.keys := Table.contains_iff_mem_keys.mp hsession
    have hsize := Table.size_erase_lt hconn
    have herased : l.Keeps { l with
        sessions := l.sessions.erase conn
        ended := l.ended ++ [⟨conn, error⟩] } := by
      refine ⟨⟨h.agenda_nodup, fun c hc => ?_, h.line_of_depart⟩, rfl, ?_, Nat.le_refl _⟩
      · obtain ⟨e, he, rfl⟩ := List.mem_map.mp hc
        exact h.line_of_session _ (List.mem_map_of_mem (List.mem_filter.mp he).1)
      · exact Nat.add_le_add_left (Nat.le_of_lt hsize) _
    refine herased.enqueue (fun c hc => ?_) (Nat.add_le_add_left hsize _) rfl
    cases hc
    exact h.line_of_session conn hconn
  · exact .refl h

theorem Keeps.modifySessions (h : l.Staffed) (conn : ConnectionId)
    (f : OpenSession → OpenSession) : l.Keeps { l with sessions := l.sessions.modify conn f } := by
  have hkeys : (l.sessions.modify conn f).keys = l.sessions.keys := Table.keys_modify ..
  refine ⟨⟨h.agenda_nodup, fun c hc => h.line_of_session c (hkeys ▸ hc), h.line_of_depart⟩, rfl,
    Nat.le_of_eq ?_, Nat.le_refl _⟩
  have hsize : (l.sessions.modify conn f).size = l.sessions.size := List.length_map ..
  show _ + (l.sessions.modify conn f).size = _
  rw [hsize]
  rfl

theorem Keeps.handle (rules : Rules) (h : l.Staffed) (conn : ConnectionId) (f : Frame) :
    l.Keeps (Lobby.handle rules conn f l) := by
  unfold Lobby.handle
  split
  · exact .refl h
  split
  · exact .takeTurn h _
  unfold welcome
  split
  · exact .finish h conn _
  rename_i handshake _
  have hpush := Keeps.push h conn ⟨.handshakeConnected, handshake.reply.encode⟩
  split
  · rename_i heq
    rw [heq] at hpush
    exact hpush.trans (.finish hpush.staffed conn _)
  · rename_i heq
    rw [heq] at hpush
    exact hpush.trans (.modifySessions hpush.staffed conn _)

theorem Keeps.serve (rules : Rules) (h : l.Staffed) (conn : ConnectionId) :
    l.Keeps (Lobby.serve rules l conn) := by
  have hframes : ∀ (fs : List Frame) (l : Lobby), l.Staffed →
      l.Keeps (fs.foldl (fun l f => Lobby.handle rules conn f l) l) := by
    intro fs
    induction fs with
    | nil => exact fun l h => .refl h
    | cons f fs ih =>
      intro l h
      have hone := Keeps.handle rules h conn f
      exact hone.trans (ih _ hone.staffed)
  unfold Lobby.serve
  split
  · exact .refl h
  rename_i s _
  rcases s.input.frames .clientToServer with ⟨fs, stop, rest⟩
  have hread := Keeps.modifySessions h conn fun s => { s with input := rest }
  have hserved := hread.trans (hframes fs _ hread.staffed)
  cases stop with
  | none => exact hserved
  | some e =>
    refine hserved.trans ?_
    show Keeps _ (onStop conn e _)
    unfold onStop
    split
    · exact .refl hserved.staffed
    · exact .finish hserved.staffed conn _

theorem Keeps.attend (rules : Rules) (h : l.Staffed) (conn : ConnectionId) :
    l.Keeps (Lobby.attend rules l conn) := by
  have hserved := Keeps.serve rules h conn
  unfold Lobby.attend
  dsimp only
  split
  · exact hserved.trans (.finish hserved.staffed conn none)
  · exact hserved

/-- A line changes and is kicked if it was. -/
theorem Keeps.modifyLine (h : l.Staffed) (conn : ConnectionId) {f : Line → Line}
    (hkick : ∀ line, (f line).outbox.kicked = line.outbox.kicked) :
    l.Keeps { l with lines := l.lines.modify conn f } := by
  have hkeys : (l.lines.modify conn f).keys = l.lines.keys := Table.keys_modify ..
  have hkicked : ∀ c, Lobby.isKicked { l with lines := l.lines.modify conn f } c =
      l.isKicked c := by
    intro c
    unfold isKicked
    rw [Table.get?_modify]
    split
    · cases l.lines.get? c with
      | none => rfl
      | some line => exact hkick line
    · rfl
  have hunkicked : Lobby.unkicked { l with lines := l.lines.modify conn f } = l.unkicked := by
    unfold unkicked
    simp only [hkeys, hkicked]
  refine ⟨⟨h.agenda_nodup, fun c hc => hkeys ▸ h.line_of_session c hc,
    fun c hc => hkeys ▸ h.line_of_depart c hc⟩, hkeys, Nat.le_of_eq ?_, Nat.le_of_eq ?_⟩
  · unfold chores
    rw [hunkicked]
  · unfold strays
    rw [hkeys]

theorem Keeps.depart (rules : Rules) (h : l.Staffed) {conn : ConnectionId}
    (hmem : conn ∈ l.lines.keys) : l.Keeps (Lobby.depart rules l conn) := by
  have hturn := Keeps.takeTurn h (Session.depart rules conn)
  have hreleased := Keeps.modifyLine hturn.staffed conn (f := Line.release) fun _ => rfl
  exact (hturn.trans hreleased).enqueue_write hmem

theorem kicked_write {line : Line} (h : line.outbox.kicked) (checksum : Checksum) :
    (line.write checksum).outbox.kicked := by
  show (line.writer.run checksum line.released line.outbox).1.kicked
  unfold Writer.run
  split
  · exact h
  · split
    · split <;> exact h
    · split <;> exact h
    · exact h
    · rfl

theorem Keeps.write (rules : Rules) (h : l.Staffed) (conn : ConnectionId) :
    l.Keeps (Lobby.write rules l conn) := by
  unfold Lobby.write
  split
  · exact .refl h
  · rename_i line hline
    exact .updateLine h hline fun hk => kicked_write hk rules.checksum

/-- A writer gives no other writer anything to do. -/
theorem writes_write_le (rules : Rules) (h : l.Staffed) (conn : ConnectionId) :
    (Lobby.write rules l conn).writes ≤ l.writes := by
  have hkeys := (Keeps.write rules h conn).keys_eq
  unfold writes
  rw [hkeys]
  refine List.countP_mono_left fun c _ hc => ?_
  rw [decide_eq_true_iff] at hc ⊢
  unfold Lobby.write at hc
  split at hc
  · exact hc
  · exact mem_agenda_of_updateLine hc fun heq => by cases heq

/-! ## Jobs -/

/-- A job taken off the agenda. -/
theorem Staffed.erase (h : l.Staffed) (job : Job) :
    Staffed { l with agenda := l.agenda.erase job } where
  agenda_nodup := h.agenda_nodup.erase job
  line_of_session := h.line_of_session
  line_of_depart conn hconn := h.line_of_depart conn (List.mem_of_mem_erase hconn)

theorem writes_le (l : Lobby) : l.writes ≤ l.lines.size :=
  Nat.le_trans List.countP_le_length (Nat.le_of_eq (List.length_map ..))

theorem size_lines_eq (h : l'.lines.keys = l.lines.keys) : l'.lines.size = l.lines.size := by
  have hlen := congrArg List.length h
  rwa [Table.keys, Table.keys, List.length_map, List.length_map] at hlen

theorem countP_erase_add_one {job : Job} (hjob : job ∈ l.agenda) {p : Job → Bool} (hp : p job) :
    (l.agenda.erase job).countP p + 1 = l.agenda.countP p := by
  rw [(List.perm_cons_erase hjob).countP_eq, List.countP_cons, if_pos hp]

theorem countP_erase_le (job : Job) (p : Job → Bool) :
    (l.agenda.erase job).countP p ≤ l.agenda.countP p :=
  List.erase_sublist.countP_le

/-- A chore that is done lowers the load, whatever it gives the writers to do. -/
theorem load_lt_of_chore {job : Job} (hjob : job ∈ l.agenda) (hchore : job.isChore)
    (h : Keeps { l with agenda := l.agenda.erase job } l') : l'.load < l.load := by
  have hfewer := countP_erase_add_one hjob hchore
  have hchores : l'.chores + 1 ≤ l.chores := by
    have hle : l'.chores ≤
        (l.agenda.erase job).countP Job.isChore + l.unkicked + l.sessions.size := h.chores_le
    unfold chores at hle ⊢
    omega
  have hstrays : l'.strays ≤ l.strays :=
    Nat.le_trans h.strays_le (countP_erase_le job _)
  have hwrites := l'.writes_le
  have hsize : l'.lines.size = l.lines.size := size_lines_eq h.keys_eq
  have hmul := Nat.mul_le_mul_right (l.lines.size + 1) hchores
  rw [Nat.add_mul, Nat.one_mul] at hmul
  unfold load
  rw [hsize] at hwrites ⊢
  omega

/-- A writer's job that is done lowers the load. -/
theorem load_write_lt (rules : Rules) (h : l.Staffed) {conn : ConnectionId}
    (hjob : .write conn ∈ l.agenda) :
    (write rules { l with agenda := l.agenda.erase (.write conn) } conn).load < l.load := by
  have htaken := h.erase (.write conn)
  have hkeeps := Keeps.write rules htaken conn
  have hwrites := writes_write_le rules htaken conn
  have hchores : Lobby.chores { l with agenda := l.agenda.erase (.write conn) } ≤ l.chores :=
    Nat.add_le_add_right (Nat.add_le_add_right (countP_erase_le _ _) _) _
  have hmul := Nat.mul_le_mul_right (l.lines.size + 1) (Nat.le_trans hkeeps.chores_le hchores)
  have hsize :
      Table.size (write rules { l with agenda := l.agenda.erase (.write conn) } conn).lines =
        l.lines.size := size_lines_eq hkeeps.keys_eq
  have hmono : ∀ c ∈ l.lines.keys, decide (Job.write c ∈ l.agenda.erase (.write conn)) →
      decide (Job.write c ∈ l.agenda) := fun c _ hc =>
    decide_eq_true (List.mem_of_mem_erase (of_decide_eq_true hc))
  have hstrays := hkeeps.strays_le
  have hfewer : Lobby.writes { l with agenda := l.agenda.erase (.write conn) } +
      Lobby.strays { l with agenda := l.agenda.erase (.write conn) } < l.writes + l.strays := by
    by_cases hmem : conn ∈ l.lines.keys
    · refine Nat.add_lt_add_of_lt_of_le ?_ (countP_erase_le _ _)
      refine countP_lt_of_mem hmono hmem (decide_eq_true hjob) (decide_eq_false ?_)
      exact h.agenda_nodup.not_mem_erase
    · refine Nat.add_lt_add_of_le_of_lt (List.countP_mono_left hmono) ?_
      exact Nat.lt_of_succ_le (Nat.le_of_eq (countP_erase_add_one hjob (decide_eq_true hmem)))
  unfold load
  rw [hsize]
  omega

/-- **Jobs.** A job that waits lowers the load when it is done. -/
theorem load_perform_lt (rules : Rules) (h : l.Staffed) {job : Job} (hjob : job ∈ l.agenda) :
    (perform rules { l with agenda := l.agenda.erase job } job).Staffed ∧
      (perform rules { l with agenda := l.agenda.erase job } job).load < l.load := by
  have htaken := h.erase job
  cases job with
  | attend conn =>
    have hkeeps := Keeps.attend rules htaken conn
    exact ⟨hkeeps.staffed, load_lt_of_chore hjob rfl hkeeps⟩
  | write conn => exact ⟨(Keeps.write rules htaken conn).staffed, load_write_lt rules h hjob⟩
  | depart conn =>
    have hkeeps := Keeps.depart rules htaken (h.line_of_depart conn hjob)
    exact ⟨hkeeps.staffed, load_lt_of_chore hjob rfl hkeeps⟩

/-- As long as a job waits there is a load. -/
theorem load_pos {job : Job} (hjob : job ∈ l.agenda) : 0 < l.load := by
  unfold load
  cases hchore : job.isChore with
  | true =>
    have hpos : 0 < l.chores := by
      have hcount : 0 < l.agenda.countP Job.isChore := List.countP_pos_iff.mpr ⟨job, hjob, hchore⟩
      unfold chores
      omega
    have hmul : 0 < l.chores * (l.lines.size + 1) := Nat.mul_pos hpos (Nat.succ_pos _)
    omega
  | false =>
    cases job with
    | attend conn => cases hchore
    | depart conn => cases hchore
    | write conn =>
      by_cases hmem : conn ∈ l.lines.keys
      · have hwrites : 0 < l.writes :=
          List.countP_pos_iff.mpr ⟨conn, hmem, decide_eq_true hjob⟩
        omega
      · have hstrays : 0 < l.strays :=
          List.countP_pos_iff.mpr ⟨.write conn, hjob, decide_eq_true hmem⟩
        omega

/-- Enough fuel for the load is enough for all jobs. -/
theorem agenda_settleUpTo (rules : Rules) {fuel : Nat} (h : l.Staffed) (hload : l.load ≤ fuel) :
    (settleUpTo rules fuel l).agenda = [] ∧ (settleUpTo rules fuel l).Staffed := by
  induction fuel generalizing l with
  | zero =>
    refine ⟨List.eq_nil_iff_forall_not_mem.mpr fun job hjob => ?_, h⟩
    exact Nat.lt_irrefl 0 (Nat.lt_of_lt_of_le (load_pos hjob) hload)
  | succ fuel ih =>
    unfold settleUpTo
    split
    · exact ⟨‹_›, h⟩
    · rename_i job rest hagenda
      have hjob : job ∈ l.agenda := hagenda ▸ List.mem_cons_self
      have herase : l.agenda.erase job = rest := by rw [hagenda, List.erase_cons_head]
      obtain ⟨hstaffed, hlt⟩ := load_perform_lt rules h hjob
      rw [herase] at hstaffed hlt
      exact ih hstaffed (Nat.le_of_lt_succ (Nat.lt_of_lt_of_le hlt hload))

/-- Every job counts once at most. -/
theorem writes_add_strays_le (l : Lobby) :
    l.writes + l.strays + l.agenda.countP Job.isChore ≤ l.agenda.length := by
  unfold writes strays
  induction l.agenda with
  | nil => simp
  | cons job jobs ih =>
    rw [List.countP_cons, List.countP_cons, List.length_cons]
    have hone : l.lines.keys.countP (fun c => decide (Job.write c ∈ job :: jobs)) ≤
        l.lines.keys.countP (fun c => decide (Job.write c = job)) +
          l.lines.keys.countP fun c => decide (Job.write c ∈ jobs) := by
      refine Nat.le_trans (List.countP_mono_left fun c _ hc => ?_) (countP_or_le _ _ _)
      rcases List.mem_cons.mp (of_decide_eq_true hc) with heq | hmem
      · simp [heq]
      · simp [hmem]
    cases job with
    | attend conn =>
      have hnone : l.lines.keys.countP (fun c => decide (Job.write c = .attend conn)) = 0 := by
        simp
      rw [hnone] at hone
      simp only [Job.isChore, Job.isStray, Bool.false_eq_true, if_true, if_false]
      omega
    | depart conn =>
      have hnone : l.lines.keys.countP (fun c => decide (Job.write c = .depart conn)) = 0 := by
        simp
      rw [hnone] at hone
      simp only [Job.isChore, Job.isStray, Bool.false_eq_true, if_true, if_false]
      omega
    | write conn =>
      have hcount : l.lines.keys.countP (fun c => decide (Job.write c = .write conn)) =
          if conn ∈ l.lines.keys then 1 else 0 := by
        have hnodup : l.lines.keys.Nodup := l.lines.nodup
        rw [← hnodup.count, List.count]
        exact List.countP_congr fun c _ => by simp
      rw [hcount] at hone
      by_cases hmem : conn ∈ l.lines.keys
      · simp only [Job.isChore, Job.isStray, hmem, not_true_eq_false, decide_false,
          Bool.false_eq_true, if_true, if_false] at hone ⊢
        omega
      · simp only [Job.isChore, Job.isStray, hmem, not_false_eq_true, decide_true,
          Bool.false_eq_true, if_true, if_false] at hone ⊢
        omega

theorem load_le_workload (l : Lobby) : l.load ≤ l.workload := by
  have hjobs := writes_add_strays_le l
  have hunkicked : l.unkicked ≤ l.lines.size :=
    Nat.le_trans List.countP_le_length (Nat.le_of_eq (List.length_map ..))
  have hwriters : l.writes + l.strays ≤ (l.writes + l.strays) * (l.lines.size + 1) :=
    Nat.le_mul_of_pos_right _ (Nat.succ_pos _)
  have hall : l.chores + (l.writes + l.strays) ≤
      l.agenda.length + l.lines.size + l.sessions.size := by
    unfold chores
    omega
  have hmul := Nat.mul_le_mul_right (l.lines.size + 1) hall
  rw [Nat.add_mul] at hmul
  unfold load workload
  omega

/-! ## Steps -/

theorem staffed_opened : opened.Staffed := ⟨List.nodup_nil, nofun, nofun⟩

theorem Staffed.receive {rules : Rules} (h : l.Staffed) {i : Input}
    (hi : Lobby.receive rules l i = some l') : l'.Staffed := by
  have hfeed : ∀ conn more, (Lobby.feed conn more l).Staffed := fun conn more =>
    (Keeps.modifySessions h conn _).staffed.enqueue nofun
  have hlink : ∀ conn (f : Writer → Writer), (l.onLink conn f).Staffed := fun conn f =>
    (Keeps.modifyLine h conn (f := (·.onWriter f)) fun _ => rfl).staffed.enqueue nofun
  cases i with
  | connect v =>
    simp only [Lobby.receive, connect] at hi
    split at hi
    · cases hi
      exact h
    · obtain ⟨line, -, rfl⟩ := Option.map_eq_some_iff.mp hi
      have hold : ∀ conn ∈ l.lines.keys, conn ∈ (l.lines.insert v.conn line).keys := by
        intro conn hconn
        rw [Table.mem_keys_iff, Table.get?_insert]
        split
        · rfl
        · exact Table.mem_keys_iff.mp hconn
      have hnew : v.conn ∈ (l.lines.insert v.conn line).keys := by
        rw [Table.mem_keys_iff, Table.get?_insert_self]
        rfl
      refine ⟨h.agenda_nodup, fun conn hconn => ?_, fun conn hconn => ?_⟩
      · rw [Table.mem_keys_iff, Table.get?_insert] at hconn
        by_cases hc : conn = v.conn
        · exact hc ▸ hnew
        · rw [if_neg hc] at hconn
          exact hold conn (h.line_of_session conn (Table.mem_keys_iff.mpr hconn))
      · exact hold conn (h.line_of_depart conn hconn)
  | bytes conn pieces => cases hi; exact hfeed ..
  | ending conn e => cases hi; exact hfeed ..
  | stall conn => cases hi; exact hlink ..
  | resume conn => cases hi; exact hlink ..
  | sever conn => cases hi; exact hlink ..
  | idle => cases hi; exact h

theorem Staffed.collected (h : l.Staffed) : l.collected.Staffed := by
  have hkeys : l.collected.lines.keys = l.lines.keys := Table.keys_mapValues ..
  refine ⟨h.agenda_nodup, fun conn hconn => ?_, fun conn hconn => ?_⟩
  · exact hkeys ▸ h.line_of_session conn hconn
  · exact hkeys ▸ h.line_of_depart conn hconn

/-- **Steps.** A step does all the work that it causes. -/
theorem agenda_step {rules : Rules} (h : l.Staffed) {i : Input} {report : Report}
    (hstep : l.step rules i = some (report, l')) : l'.agenda = [] ∧ l'.Staffed := by
  obtain ⟨received, hreceived, heq⟩ := Option.map_eq_some_iff.mp hstep
  obtain ⟨-, rfl⟩ := Prod.mk.inj heq
  obtain ⟨hagenda, hstaffed⟩ :=
    agenda_settleUpTo rules (h.receive hreceived) received.load_le_workload
  exact ⟨hagenda, hstaffed.collected⟩

end Lobby

end GameLobby
