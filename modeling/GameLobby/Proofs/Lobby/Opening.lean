import GameLobby.Proofs.Session.Greeting
import GameLobby.Proofs.Lobby.Strangers

/-!
# The opening of a connection

A session waits for its first frame and has no account until it has shaken hands. While it waits
nobody else reaches it, and its line stays idle (`Waiting`). What is at the front of its input
decides what comes of it: it ends and leaves no trace (`Absent`), or its handshake is answered and
notices follow (`Greeted`). Each act leads from one phase to the same or to a later one
(`Phase.act`). Main statement: `first_frame_decides`.
-/

namespace GameLobby

namespace Lobby

/-! ## What a client sends -/

/-- What a client sends in the course of a run, and how that ends. -/
def fed (conn : ConnectionId) (hs : List Happening) : Stream :=
  hs.foldl (fun s h => h.act.feed conn s) .opened

/-- From the end on nothing more is sent. -/
def Orderly (conn : ConnectionId) (hs : List Happening) : Prop :=
  ∀ n < hs.length, (fed conn (hs.take n)).ending ≠ .pending →
    fed conn (hs.take (n + 1)) = fed conn (hs.take n)

instance (conn : ConnectionId) (hs : List Happening) : Decidable (Orderly conn hs) :=
  inferInstanceAs (Decidable (∀ n < hs.length, _ → _))

variable {rules : Rules} {l l' l'' : Lobby} {c : ConnectionId} {life : List Happening}

theorem fed_snoc (c : ConnectionId) (life : List Happening) (h : Happening) :
    fed c (life ++ [h]) = h.act.feed c (fed c life) := by
  unfold fed
  rw [List.foldl_append]
  rfl

theorem Orderly.snoc {h : Happening} (horderly : Orderly c (life ++ [h])) :
    Orderly c life ∧ ((fed c life).ending ≠ .pending → fed c (life ++ [h]) = fed c life) := by
  constructor
  · intro n hn
    have hat := horderly n (by rw [List.length_append]; omega)
    rwa [List.take_append_of_le_length (Nat.le_of_lt hn), List.take_append_of_le_length hn] at hat
  · intro hending
    have hat := horderly life.length (by rw [List.length_append, List.length_singleton]; omega)
    rw [List.take_left, List.take_of_length_le (by simp)] at hat
    exact hat hending

/-- What was made of the front of what a client sends does not change. -/
theorem Orderly.next_snoc {h : Happening} (horderly : Orderly c (life ++ [h]))
    (hmade : ((fed c life).next .clientToServer).1 ≠ .pending) :
    ((fed c (life ++ [h])).next .clientToServer).1 = ((fed c life).next .clientToServer).1 := by
  by_cases hending : (fed c life).ending = .pending
  · obtain ⟨more, hmore⟩ := h.act.bytes_feed c (fed c life)
    rw [fed_snoc]
    exact Stream.next_of_more hending hmade hmore
  · rw [horderly.snoc.2 hending]

/-! ## What a session makes of its first frame -/

theorem handle_of_none (rules : Rules) (f : Frame) (hs : l.sessions.get? c = none) :
    handle rules c f l = l := by
  unfold handle
  rw [hs]

/-- A session that has ended does nothing. -/
theorem served_of_none (rules : Rules) (fs : List Frame) (stop : Option FrameError)
    (hs : l.sessions.get? c = none) : served rules c fs stop l = l := by
  have hall : fs.foldl (fun l f => handle rules c f l) l = l := by
    induction fs with
    | nil => rfl
    | cons f fs ih => rw [List.foldl_cons, handle_of_none rules f hs, ih]
  have huntil : handleUntil rules c fs stop l = l := by
    unfold handleUntil
    rw [hall]
    cases stop with
    | none => rfl
    | some e =>
      show onStop c e l = l
      unfold onStop
      rw [hs]
  unfold served
  rw [huntil]
  dsimp only
  rw [hs]
  rfl

theorem served_cons (rules : Rules) (f : Frame) (fs : List Frame) (stop : Option FrameError)
    (l : Lobby) : served rules c (f :: fs) stop l = served rules c fs stop (handle rules c f l) :=
  rfl

theorem served_stop (rules : Rules) (e : FrameError) (l : Lobby) :
    served rules c [] (some e) l = served rules c [] none (onStop c e l) :=
  rfl

/-- An idle line takes in a frame. -/
theorem Idle.push (h : l.Idle c) {f : OutboundFrame}
    (hle : f.payload.length ≤ FrameHeader.maxPayload) :
    (l.push c f).1 = .ok () ∧ (l.push c f).2.queued c = [f] := by
  obtain ⟨line, hline, hidle⟩ := h
  have hpush : line.push f =
      (.ok (), { line with outbox := { line.outbox with queue := line.outbox.queue ++ [f] } }) := by
    unfold Line.push Outbox.push
    have hroom : ¬ line.outbox.capacity ≤ line.outbox.queue.length :=
      Nat.not_le.mpr (hidle.queue_nil ▸ hidle.capacity_pos)
    rw [if_neg (Nat.not_lt.mpr hle), if_neg (by rw [hidle.closed_eq]; exact Bool.false_ne_true),
      if_neg hroom]
  have hafter : (l.push c f).2.lines.get? c = some (line.push f).2 := by
    rw [get?_lines_push, if_pos rfl, hline]
    rfl
  constructor
  · unfold Lobby.push
    rw [hline]
    dsimp only
    rw [hpush]
  · rw [queued_of_some hafter, hpush]
    show line.outbox.queue ++ [f] = [f]
    rw [hidle.queue_nil]
    rfl

section Attend

variable {s : OpenSession} (hs : l.sessions.get? c = some s) (hnew : s.greeted = false)

include hs hnew

/-- A session waits on as long as its first frame is not complete. -/
theorem attend_of_pending (rules : Rules) (hnone : l.registry.account? c = none)
    (hpending : (s.input.next .clientToServer).1 = .pending) :
    Spares c l (attend rules l c) ∧ (attend rules l c).registry = l.registry := by
  have hsame : (l.leave c s.input).sessions.get? c = some s := get?_sessions_leave hs s.input
  have hattend : attend rules l c = l.leave c s.input := by
    rw [attend_of_session rules hs (Stream.frames_of_pending hpending)]
    unfold served
    dsimp only [handleUntil, List.foldl_nil]
    rw [hsame, Option.any_some, hnew]
    rfl
  rw [hattend]
  exact ⟨.of_lookups hnone (hsame.trans hs.symm) rfl rfl, rfl⟩

/-- A session without a handshake handles its first frame. -/
theorem handle_of_new (rules : Rules) (f : Frame) : handle rules c f l = welcome rules c f l := by
  unfold handle
  rw [hs]
  dsimp only
  rw [hnew, if_neg Bool.false_ne_true]

/-- A session ends that is sent something else than a handshake. -/
theorem attend_of_refused (hidle : l.Idle c) (hnone : l.registry.account? c = none)
    (hrefused : s.input.Refused rules) :
    (attend rules l c).Absent c ∧ (attend rules l c).registry = l.registry := by
  have hended : ∀ rest error, ((l.leave c rest).finish c error).sessions.get? c = none :=
    fun rest error => by rw [get?_sessions_finish, if_pos rfl]
  obtain ⟨rest, error, hattend⟩ :
      ∃ rest error, attend rules l c = (l.leave c rest).finish c error := by
    obtain ⟨hmade, hnot⟩ := hrefused
    cases hnext : (s.input.next .clientToServer).1 with
    | pending => exact absurd hnext hmade
    | failed e =>
      obtain ⟨rest, hframes⟩ := Stream.frames_of_failed hnext
      have hstop : onStop c e (l.leave c rest) = (l.leave c rest).finish c (some (.frame e)) := by
        unfold onStop
        rw [get?_sessions_leave hs rest]
        simp [hnew]
      refine ⟨rest, some (.frame e), ?_⟩
      rw [attend_of_session rules hs hframes, served_stop, hstop]
      exact served_of_none rules _ _ (hended ..)
    | frame f =>
      obtain ⟨fs, stop, rest, hframes⟩ := Stream.frames_of_frame hnext
      cases hgreet : Session.greet rules f with
      | ok handshake => exact absurd ⟨f, hnext, hgreet⟩ (hnot handshake)
      | error e =>
        have hhandle : handle rules c f (l.leave c rest) = (l.leave c rest).finish c (some e) := by
          rw [handle_of_new (get?_sessions_leave hs rest) hnew]
          unfold welcome
          rw [hgreet]
        refine ⟨rest, some e, ?_⟩
        rw [attend_of_session rules hs hframes, served_cons, hhandle]
        exact served_of_none rules _ _ (hended ..)
  have hqueue : ((l.leave c rest).finish c error).queued c = l.queued c :=
    queued_of_get? (by rw [lines_finish, leave])
  rw [hattend]
  refine ⟨⟨?_, hended .., hqueue.trans hidle.queued_eq⟩, registry_finish ..⟩
  rw [registry_finish]
  exact hnone

/-- A handshake is answered, and notices follow. -/
theorem attend_of_greets (hidle : l.Idle c) {handshake : Handshake}
    (hgreets : s.input.Greets rules handshake) :
    (attend rules l c).Greeted c ∧ ∃ notices,
      (attend rules l c).queued c = ⟨.handshakeConnected, handshake.reply.encode⟩ :: notices ∧
        ∀ f ∈ notices, f.IsNotice := by
  obtain ⟨f, hnext, hgreet⟩ := hgreets
  obtain ⟨fs, stop, rest, hframes⟩ := Stream.frames_of_frame hnext
  let read : Lobby := l.leave c rest
  let reply : OutboundFrame := ⟨.handshakeConnected, handshake.reply.encode⟩
  -- nobody else has used the line, so there is room for the answer
  have hidle' : read.Idle c := hidle
  obtain ⟨hok, hqueue⟩ := hidle'.push (f := reply) (by
    rw [handshake.reply.length_encode]
    decide)
  let answered : Lobby := { (read.push c reply).2 with
    sessions := (read.push c reply).2.sessions.modify c fun s => { s with greeted := true } }
  have hhandle : handle rules c f read = answered := by
    rw [handle_of_new (get?_sessions_leave hs rest) hnew]
    unfold welcome
    rw [hgreet]
    dsimp only
    rw [show read.push c reply = (.ok (), (read.push c reply).2) from Prod.ext hok rfl]
  have hattend : attend rules l c = served rules c fs stop answered := by
    rw [attend_of_session rules hs hframes, served_cons, hhandle]
  have hgreeted : answered.Greeted c := by
    intro s' hs'
    rw [Table.get?_modify_self] at hs'
    obtain ⟨_, -, rfl⟩ := Option.map_eq_some_iff.mp hs'
    rfl
  have hserves : Serves rules c answered (served rules c fs stop answered) :=
    Serves.refl.served fs stop
  obtain ⟨notices, hafter, hnotices⟩ := hserves.queued c
  rw [hattend]
  refine ⟨hserves.greeted hgreeted, notices, ?_, hnotices fun _ => hgreeted⟩
  rw [hafter]
  exact congrArg (· ++ notices) hqueue

end Attend

/-! ## Phases -/

/-- In this run nothing was queued for a connection, and nothing that was done for it changed the
registry. -/
structure Silent (conn : ConnectionId) (life : List Happening) : Prop where
  accepted_nil : accepted conn life = []
  untouched : ∀ h ∈ life, h.act.conn? = some conn → h.after.registry = h.before.registry

theorem Silent.snoc {a : Act} (h : Silent c life) (hqueue : l'.queued c = [])
    (hreg : a.conn? = some c → l'.registry = l.registry) : Silent c (life ++ [⟨l, a, l'⟩]) where
  accepted_nil := by
    have hnone : Happening.accepted c ⟨l, a, l'⟩ = [] :=
      accepted_of_suffix (show l'.queued c <:+ _ from hqueue ▸ List.nil_suffix)
    rw [accepted_snoc, h.accepted_nil, hnone]
    rfl
  untouched := List.forall_mem_append.mpr ⟨h.untouched, List.forall_mem_singleton.mpr hreg⟩

/-- A session waits for its first frame, with all that its client has sent. It is attended to when
there is something to be made of that. -/
structure Waiting (conn : ConnectionId) (input : Stream) (l : Lobby) : Prop where
  account_none : l.registry.account? conn = none
  session : ∃ v, l.sessions.get? conn = some ⟨v, false, input⟩
  idle : l.Idle conn
  attend_mem : (input.next .clientToServer).1 ≠ .pending → .attend conn ∈ l.agenda
  depart_not_mem : .depart conn ∉ l.agenda

theorem Waiting.spares {input : Stream} (h : Waiting c input l) (hs : Spares c l l') :
    Waiting c input l' where
  account_none := hs.account_none
  session := hs.session_eq ▸ h.session
  idle := hs.idle h.idle
  attend_mem hmade := hs.attend_mem (h.attend_mem hmade)
  depart_not_mem hd := h.depart_not_mem (hs.depart_mem hd)

theorem Waiting.feed {input : Stream} (h : Waiting c input l) (more : Stream → Stream) :
    Waiting c (more input) (feed c more l) := by
  obtain ⟨v, hs⟩ := h.session
  refine ⟨?_, ⟨v, ?_⟩, ?_, fun _ => ?_, fun hd => ?_⟩
  · rw [Lobby.feed, registry_enqueue]
    exact h.account_none
  · rw [Lobby.feed, sessions_enqueue, Table.get?_modify_self, hs]
    rfl
  · obtain ⟨line, hline, hidle⟩ := h.idle
    exact ⟨line, by rw [Lobby.feed, lines_enqueue]; exact hline, hidle⟩
  · exact (mem_agenda_enqueue ..).mpr (.inr rfl)
  · have hmem := mem_agenda_of_enqueue _ _ hd fun heq => by cases heq
    exact h.depart_not_mem hmem

/-- The writer of an idle line does nothing. -/
theorem Idle.write (h : l.Idle c) (hnone : l.registry.account? c = none) (rules : Rules) :
    Spares c l (write rules l c) := by
  obtain ⟨line, hline, hidle⟩ := h
  have hsame : line.write rules.checksum = line := by
    have hrun : line.writer.run rules.checksum line.released line.outbox =
        (line.outbox, line.writer) := by
      unfold Writer.run Writer.pending
      rw [hidle.held_eq, hidle.queue_nil, hidle.released_eq]
      split <;> rfl
    unfold Line.write
    rw [hrun]
  have hkick : ¬ (line.outbox.kicked && !line.outbox.kicked) := by
    cases line.outbox.kicked <;> decide
  unfold Lobby.write
  rw [hline]
  dsimp only
  rw [hsame, updateLine, if_neg hkick]
  exact .of_lookups hnone rfl ((Table.get?_insert_self ..).trans hline.symm) rfl

/-- What has become of a connection in its life. -/
inductive Phase (rules : Rules) (conn : ConnectionId) (life : List Happening) (l : Lobby) :
    Prop where
  | waiting (h : Waiting conn (fed conn life) l) (hsilent : Silent conn life)
  | refused (h : l.Absent conn) (hwhy : (fed conn life).Refused rules) (hsilent : Silent conn life)
  | greeted (h : l.Greeted conn) {handshake : Handshake} {notices : List OutboundFrame}
      (hwhy : (fed conn life).Greets rules handshake)
      (haccepted : accepted conn life =
        ⟨.handshakeConnected, handshake.reply.encode⟩ :: notices)
      (hnotices : ∀ f ∈ notices, f.IsNotice)

/-- A session that waits is attended to. -/
theorem Waiting.attend {input : Stream} (h : Waiting c input l) (rules : Rules) :
    let taken : Lobby := { l with agenda := l.agenda.erase (.attend c) }
    let l' := Lobby.attend rules taken c
    (Waiting c input l' ∧ l'.registry = l.registry) ∨
      (l'.Absent c ∧ input.Refused rules ∧ l'.registry = l.registry) ∨
      ∃ handshake notices, l'.Greeted c ∧ input.Greets rules handshake ∧
        l'.queued c = ⟨.handshakeConnected, handshake.reply.encode⟩ :: notices ∧
        ∀ f ∈ notices, f.IsNotice := by
  intro taken l'
  obtain ⟨v, hs⟩ := h.session
  have hsession : taken.sessions.get? c = some ⟨v, false, input⟩ := hs
  by_cases hpending : (input.next .clientToServer).1 = .pending
  -- the job is off the agenda, and it takes more input to bring it up again
  · obtain ⟨hspared, hreg⟩ := attend_of_pending hsession rfl rules h.account_none hpending
    have htaken : Waiting c input taken :=
      ⟨h.account_none, h.session, h.idle, fun hmade => absurd hpending hmade,
        fun hd => h.depart_not_mem (List.mem_of_mem_erase hd)⟩
    exact .inl ⟨htaken.spares hspared, hreg⟩
  by_cases hgreets : ∃ handshake, input.Greets rules handshake
  · obtain ⟨handshake, hgreets⟩ := hgreets
    obtain ⟨hgreeted, notices, hqueue, hnotices⟩ :=
      attend_of_greets hsession rfl (show taken.Idle c from h.idle) hgreets
    exact .inr (.inr ⟨handshake, notices, hgreeted, hgreets, hqueue, hnotices⟩)
  · have hrefused : input.Refused rules := ⟨hpending, fun handshake hg => hgreets ⟨handshake, hg⟩⟩
    obtain ⟨habsent, hreg⟩ :=
      attend_of_refused hsession rfl (show taken.Idle c from h.idle) h.account_none hrefused
    exact .inr (.inl ⟨habsent, hrefused, hreg⟩)

/-- What an act leads to while a session waits. -/
theorem Waiting.act {a : Act} (hl : l.Regular) (h : Waiting c (fed c life) l)
    (hsilent : Silent c life) (ha : Acts rules l a l') (hconnect : ¬ a.Connects c) :
    Phase rules c (life ++ [⟨l, a, l'⟩]) l' := by
  have hstays : Waiting c (a.feed c (fed c life)) l' →
      (a.conn? = some c → l'.registry = l.registry) →
      Phase rules c (life ++ [⟨l, a, l'⟩]) l' := fun hw hreg =>
    .waiting (fed_snoc c life ⟨l, a, l'⟩ ▸ hw) (hsilent.snoc hw.idle.queued_eq hreg)
  by_cases hown : a.conn? = some c
  · cases ha with
    | @receive i _ hi =>
      have hreg := (quiet_receive hi).registry_eq
      cases takes_of_receive hi with
      | connect heq =>
        subst heq
        exact absurd (Option.some.inj hown) hconnect
      | @feed conn hconn =>
        obtain rfl : c = conn := Option.some.inj (hown.symm.trans hconn)
        exact hstays (h.feed _) fun _ => hreg
      | @link conn _ hheld hfeed =>
        refine hstays ?_ fun _ => hreg
        rw [hfeed]
        exact h.spares (spares_onLink h.account_none conn hheld)
      | nothing hfeed =>
        refine hstays ?_ fun _ => hreg
        rw [hfeed]
        exact h
    | @perform gatekeeper job hjob =>
      cases job with
      | attend conn =>
        obtain rfl : c = conn := (Option.some.inj hown).symm
        rcases h.attend (rules.under gatekeeper) with ⟨hw, hreg⟩ | ⟨habsent, hrefused, hreg⟩ |
          ⟨handshake, notices, hgreeted, hgreets, hqueue, hnotices⟩
        · exact hstays hw fun _ => hreg
        · refine .refused habsent ?_ (hsilent.snoc habsent.queued_nil fun _ => hreg)
          rw [fed_snoc]
          exact hrefused
        · refine .greeted hgreeted (by rw [fed_snoc]; exact hgreets) ?_ hnotices
          rw [accepted_snoc, hsilent.accepted_nil, List.nil_append]
          refine accepted_of_append ?_
          rw [h.idle.queued_eq]
          exact hqueue
      | write conn =>
        obtain rfl : c = conn := (Option.some.inj hown).symm
        have htaken : Spares c l { l with agenda := l.agenda.erase (.write c) } :=
          .erase h.account_none nofun
        have hidle := htaken.idle h.idle
        refine hstays (h.spares (htaken.trans (hidle.write h.account_none _))) fun _ => ?_
        exact (quiet_write rules _ c).registry_eq
      | depart conn =>
        obtain rfl : c = conn := (Option.some.inj hown).symm
        exact absurd hjob h.depart_not_mem
    | collect => cases hown
  · refine hstays ?_ fun h => absurd h hown
    rw [Act.feed_of_conn?_ne hown]
    exact h.spares (ha.spares hl h.account_none hown)

/-- **Phases.** An act leads from a phase to the same or to a later one. -/
theorem Phase.act {a : Act} (hl : l.Regular) (h : Phase rules c life l) (ha : Acts rules l a l')
    (hconnect : ¬ a.Connects c) (horderly : Orderly c (life ++ [⟨l, a, l'⟩])) :
    Phase rules c (life ++ [⟨l, a, l'⟩]) l' := by
  cases h with
  | waiting hw hsilent => exact hw.act hl hsilent ha hconnect
  | refused habsent hwhy hsilent =>
    obtain ⟨habsent', hreg, -⟩ := ha.absent hl habsent hconnect
    exact .refused habsent' (hwhy.congr (horderly.next_snoc hwhy.1))
      (hsilent.snoc habsent'.queued_nil hreg)
  | @greeted hgreeted handshake notices hwhy haccepted hnotices =>
    obtain ⟨more, hmore, hall⟩ : ∃ more, Happening.accepted c ⟨l, a, l'⟩ = more ∧
        ∀ f ∈ more, f.IsNotice := by
      rcases ha.queued c with ⟨new, hqueue, hnew⟩ | hsuffix
      · exact ⟨new, accepted_of_append hqueue, hnew fun _ => hgreeted⟩
      · exact ⟨[], accepted_of_suffix hsuffix, nofun⟩
    refine .greeted (ha.greeted hconnect hgreeted) (hwhy.congr (horderly.next_snoc hwhy.made)) ?_
      (List.forall_mem_append.mpr ⟨hnotices, hall⟩)
    rw [accepted_snoc, haccepted, hmore]
    rfl

theorem Phase.run {l₁ : Lobby} (hl₁ : l₁.Regular) (h₁ : Phase rules c [] l₁)
    (hlife : Runs rules l₁ life l) (hconnect : ∀ h ∈ life, ¬ h.act.Connects c)
    (horderly : Orderly c life) : l.Regular ∧ Phase rules c life l := by
  induction hlife with
  | refl => exact ⟨hl₁, h₁⟩
  | @act hs l' l'' a _ ha ih =>
    obtain ⟨hbefore, hnow⟩ := List.forall_mem_append.mp hconnect
    obtain ⟨hl', hphase⟩ := ih hbefore horderly.snoc.1
    exact ⟨ha.regular hl', hphase.act hl' ha (hnow _ (List.mem_singleton_self _)) horderly⟩

/-! ## Lives -/

/-- A connection that has yet to connect is nowhere to be found. -/
theorem runs_absent {before : List Happening} (hbefore : Runs rules opened before l)
    (hconnect : ∀ h ∈ before, ¬ h.act.Connects c) :
    l.Regular ∧ l.Absent c ∧ .depart c ∉ l.agenda := by
  induction hbefore with
  | refl => exact ⟨.opened, ⟨rfl, rfl, rfl⟩, nofun⟩
  | @act hs l' l'' a _ ha ih =>
    obtain ⟨hpast, hnow⟩ := List.forall_mem_append.mp hconnect
    obtain ⟨hl', habsent, hdepart⟩ := ih hpast
    obtain ⟨habsent', -, hmono⟩ := ha.absent hl' habsent (hnow _ (List.mem_singleton_self _))
    exact ⟨ha.regular hl', habsent', fun hd => hdepart (hmono hd)⟩

/-- A client connects, and its session waits. -/
theorem exists_connect {v : Visitor} (hcapacity : 0 < rules.config.outboxCapacity)
    (hmax : rules.config.outboxCapacity ≤ Outbox.maxCapacity) (habsent : l.Absent v.conn)
    (hdepart : .depart v.conn ∉ l.agenda) :
    ∃ l', receive rules l (.connect v) = some l' ∧ Phase rules v.conn [] l' := by
  have hfree : ¬ l.sessions.contains v.conn := by
    unfold Table.contains
    rw [habsent.session_none]
    exact Bool.false_ne_true
  have hline : Line.new? v.conn rules.config.outboxCapacity =
      some ⟨⟨v.conn, rules.config.outboxCapacity, [], false, false⟩, .start .flowing, false⟩ := by
    unfold Line.new? Outbox.new?
    rw [if_pos ⟨hcapacity, hmax⟩]
    rfl
  let line : Line :=
    ⟨⟨v.conn, rules.config.outboxCapacity, [], false, false⟩, .start .flowing, false⟩
  let l₁ : Lobby := { l with
    sessions := l.sessions.insert v.conn ⟨v, false, .opened⟩
    lines := l.lines.insert v.conn line }
  have hconnect : receive rules l (.connect v) = some l₁ := by
    show connect rules v l = _
    unfold connect
    rw [if_neg hfree, hline]
    rfl
  have hpending : (Stream.opened.next .clientToServer).1 = .pending := by decide
  refine ⟨l₁, hconnect, .waiting ⟨habsent.account_none, ⟨v, ?_⟩, ⟨line, ?_, ?_⟩, ?_, hdepart⟩
    ⟨rfl, nofun⟩⟩
  · exact Table.get?_insert_self ..
  · exact Table.get?_insert_self ..
  · exact ⟨rfl, rfl, hcapacity, rfl, rfl⟩
  · exact fun hmade => absurd hpending hmade

/-- **Openings.** A client connects for the first time, whatever the lobby has been through, and
then anything happens but that it connects again or sends more after its end. The jobs that wait can
always be done. As long as no frame that opens a connection is at the front of what the client
sends, nothing is queued for it and nothing is changed on its behalf; and when all jobs are done the
session has ended, if the client has come to an end or sent something else. If such a frame is at
the front, its handshake is answered, no later than when all jobs are done, and what the outbox
accepts is that answer and then notices. -/
theorem first_frame_decides (hcapacity : 0 < rules.config.outboxCapacity)
    (hmax : rules.config.outboxCapacity ≤ Outbox.maxCapacity) {before : List Happening}
    {l₀ : Lobby} (hbefore : Runs rules opened before l₀) {v : Visitor}
    (hnew : ∀ h ∈ before, ¬ h.act.Connects v.conn) :
    ∃ l₁, receive rules l₀ (.connect v) = some l₁ ∧ ∀ (life : List Happening) (l : Lobby),
      Runs rules l₁ life l → (∀ h ∈ life, ¬ h.act.Connects v.conn) → Orderly v.conn life →
        let sent := fed v.conn life
        (∃ rest l', Runs rules l rest l' ∧ rest.filterMap (·.act.input?) = [] ∧ l'.agenda = []) ∧
        ((∀ (f : Frame) (rest : Bytes), sent.bytes = f.encode ++ rest → ¬ f.Opens rules) →
          Silent v.conn life ∧ l.queued v.conn = [] ∧
            (sent.ending ≠ .pending ∨ (sent.next .clientToServer).1 ≠ .pending →
              l.agenda = [] → l.sessions.get? v.conn = none)) ∧
        ∀ (f : Frame) (rest : Bytes), sent.bytes = f.encode ++ rest → f.Opens rules →
          ∃ handshake, Handshake.decode f.payload = .ok handshake ∧
            (Silent v.conn life ∧ l.agenda ≠ [] ∨ ∃ notices : List OutboundFrame,
              accepted v.conn life =
                ⟨.handshakeConnected, handshake.reply.encode⟩ :: notices ∧
              ∀ n ∈ notices, n.IsNotice) := by
  obtain ⟨hl₀, habsent, hdepart⟩ := runs_absent hbefore hnew
  obtain ⟨l₁, hl₁, hphase₁⟩ := exists_connect hcapacity hmax habsent hdepart
  refine ⟨l₁, hl₁, fun life l hlife hconnect horderly => ?_⟩
  obtain ⟨-, hphase⟩ := hphase₁.run ((Acts.receive hl₁).regular hl₀) hlife hconnect horderly
  intro sent
  have hstaffed₁ := (Acts.receive hl₁).staffed (hbefore.staffed staffed_opened)
  refine ⟨exists_settled rules (hlife.staffed hstaffed₁), ?_⟩
  cases hphase with
  | waiting hw hsilent =>
    -- the session has a job as soon as there is something to be made of its input
    have hbusy : (sent.next .clientToServer).1 ≠ .pending → l.agenda ≠ [] := fun hmade hagenda =>
      List.not_mem_nil (hagenda ▸ hw.attend_mem hmade)
    refine ⟨fun _ => ⟨hsilent, hw.idle.queued_eq, fun hmade hagenda => ?_⟩,
      fun f rest hs hopens => ?_⟩
    · refine absurd hagenda (hbusy (hmade.elim (fun hending hpending => ?_) id))
      exact hending (Stream.next_of_pending hpending).2
    · obtain ⟨handshake, hdecode⟩ := Handshake.exists_decode_iff.mpr hopens.length_eq
      have hgreets := (Stream.greets_iff hs hopens).mpr hdecode
      exact ⟨handshake, hdecode, .inl ⟨hsilent, hbusy hgreets.made⟩⟩
  | refused habsent hwhy hsilent =>
    refine ⟨fun _ => ⟨hsilent, habsent.queued_nil, fun _ _ => habsent.session_none⟩,
      fun f rest hs hopens => ?_⟩
    obtain ⟨handshake, hdecode⟩ := Handshake.exists_decode_iff.mpr hopens.length_eq
    exact absurd ((Stream.greets_iff hs hopens).mpr hdecode) (hwhy.2 handshake)
  | @greeted _ handshake notices hwhy haccepted hnotices =>
    refine ⟨fun hnone => ?_, fun f rest hs hopens => ?_⟩
    · obtain ⟨f, rest, hs, hopens⟩ := hwhy.opens
      exact absurd hopens (hnone f rest hs)
    · exact ⟨handshake, (Stream.greets_iff hs hopens).mp hwhy, .inr ⟨notices, haccepted, hnotices⟩⟩

/-- A first client sends its handshake in pieces, its session looks at it and its writer works: the
handshake is answered. -/
theorem hello_answered :
    let hello := Handshake.ofClient 1 "" ""
    ∃ (life : List Happening) (l : Lobby),
      Runs .plain (opened.visitedBy (.numbered 1)) life l ∧ life.length = 3 ∧ l.agenda = [] ∧
        ∃ notices, accepted ⟨1⟩ life = ⟨.handshakeConnected, hello.reply.encode⟩ :: notices := by
  intro hello
  let f := Frame.carrying .clientToServer .handshakeConnect hello.encode .wordSum
  let visited : Lobby := opened.visitedBy (.numbered 1)
  let sent : Lobby :=
    feed ⟨1⟩ (fun s => { s with pieces := s.pieces ++ f.encode.chunks 50 }) visited
  let attended :=
    perform .plain { sent with agenda := sent.agenda.erase (.attend ⟨1⟩) } (.attend ⟨1⟩)
  let wrote :=
    perform .plain { attended with agenda := attended.agenda.erase (.write ⟨1⟩) } (.write ⟨1⟩)
  let life : List Happening :=
    [⟨visited, .receive (.bytes ⟨1⟩ (f.encode.chunks 50)), sent⟩,
      ⟨sent, .perform (.attend ⟨1⟩), attended⟩, ⟨attended, .perform (.write ⟨1⟩), wrote⟩]
  have hruns : Runs .plain visited life wrote :=
    ((Runs.act .refl (.receive rfl)).act (.ruled (by decide))).act (.ruled (by decide))
  have hagenda : wrote.agenda = [] := by decide
  have hopens : f.Opens .plain :=
    ⟨Frame.sound_carrying _ _ _ (by decide), by decide, by decide, fun _ => rfl⟩
  obtain ⟨l₁, hl₁, hlife⟩ := @first_frame_decides .plain (by decide) (by decide) [] opened .refl
    (.numbered 1) nofun
  obtain rfl : visited = l₁ := Option.some.inj hl₁
  obtain ⟨-, -, hanswered⟩ := hlife life wrote hruns (by decide) (by decide)
  obtain ⟨handshake, hdecode, hcases⟩ := hanswered f [] (by decide) hopens
  obtain rfl : hello = handshake := by
    have hhello : Handshake.decode f.payload = .ok hello := by
      rw [Handshake.decode, dif_pos (by decide)]
      exact congrArg Except.ok (by decide)
    exact Except.ok.inj (hhello.symm.trans hdecode)
  refine ⟨life, wrote, hruns, rfl, hagenda, ?_⟩
  rcases hcases with ⟨-, hbusy⟩ | ⟨notices, haccepted, -⟩
  · exact absurd hagenda hbusy
  · exact ⟨notices, haccepted⟩

end Lobby

end GameLobby
