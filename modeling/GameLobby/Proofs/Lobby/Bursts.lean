import GameLobby.Proofs.Lobby.Acts
import GameLobby.Proofs.Lobby.Advertising
import GameLobby.Proofs.Lobby.LoginWatching
import GameLobby.Proofs.Lobby.Registration

/-!
# Bursts

Who starts to watch rooms or logins is told of all that are there in one turn, and its writer does
not work before the turn is over. So what the queue takes in is what its capacity allows, however
fast the client reads, and the client is kicked if there is more (`Lobby.Burst`). A queue has the
capacity that the configuration says (`Reached.capacity_eq`), and that may be one. Main statement:
`shown_in_one_burst`.
-/

namespace GameLobby

open Registry

/-! ## Capacities -/

theorem Outbox.capacity_push (o : Outbox) (f : OutboundFrame) :
    (o.push f).2.capacity = o.capacity := by
  unfold push
  split
  · rfl
  · split
    · rfl
    · split <;> rfl

theorem Outbox.capacity_pushAll (o : Outbox) (ms : List Message) :
    (o.pushAll ms).capacity = o.capacity := by
  induction ms generalizing o with
  | nil => rfl
  | cons m ms ih => exact (ih _).trans (o.capacity_push _)

theorem Line.capacity_write (checksum : Checksum) (line : Line) :
    (line.write checksum).outbox.capacity = line.outbox.capacity := by
  show (line.writer.run checksum line.released line.outbox).1.capacity = _
  unfold Writer.run
  split
  · rfl
  · split
    · split <;> rfl
    · split <;> rfl
    · rfl
    · rfl

namespace Lobby

/-- Every outbox has room for as many frames as the configuration says. -/
structure Provided (rules : Rules) (l : Lobby) : Prop where
  capacity_eq : ∀ conn line, l.lines.get? conn = some line →
    line.outbox.capacity = rules.config.outboxCapacity

namespace Provided

variable {rules : Rules} {l l' : Lobby} (h : l.Provided rules)

include h

theorem congr (heq : l'.lines = l.lines) : l'.Provided rules :=
  ⟨fun conn line hline => h.capacity_eq conn line (heq ▸ hline)⟩

/-- Lines change and their capacities stay. -/
theorem map (f : ConnectionId → Line → Line)
    (hlines : ∀ c, l'.lines.get? c = (l.lines.get? c).map (f c))
    (hf : ∀ c line, (f c line).outbox.capacity = line.outbox.capacity) : l'.Provided rules := by
  refine ⟨fun c line' hline' => ?_⟩
  rw [hlines] at hline'
  obtain ⟨line, hline, rfl⟩ := Option.map_eq_some_iff.mp hline'
  exact (hf c line).trans (h.capacity_eq c line hline)

/-- One line is put in the place of another. -/
theorem insert {conn : ConnectionId} {line : Line} (hlines : l'.lines = l.lines.insert conn line)
    (hline : line.outbox.capacity = rules.config.outboxCapacity) : l'.Provided rules := by
  refine ⟨fun c line' hline' => ?_⟩
  rw [hlines, Table.get?_insert] at hline'
  split at hline'
  · cases hline'
    exact hline
  · exact h.capacity_eq c line' hline'

theorem modify (conn : ConnectionId) (f : Line → Line)
    (hf : ∀ line, (f line).outbox.capacity = line.outbox.capacity) :
    Provided rules { l with lines := l.lines.modify conn f } := by
  refine h.map (fun c line => if c = conn then f line else line) (fun c => ?_) fun c line => ?_
  · rw [Table.get?_modify]
    split
    · rfl
    · exact Option.map_id'.symm
  · split
    · exact hf line
    · rfl

theorem push (conn : ConnectionId) (f : OutboundFrame) : (l.push conn f).2.Provided rules := by
  refine h.map (fun c line => if c = conn then (line.push f).2 else line) (fun c => ?_)
    fun c line => ?_
  · rw [get?_lines_push]
    split
    · rfl
    · exact Option.map_id'.symm
  · split
    · exact line.outbox.capacity_push f
    · rfl

theorem takeTurn (turn : Turn → Turn) : (l.takeTurn turn).Provided rules :=
  h.map (fun c line => line.pushAll (Offer.messagesFor c (turn ⟨l.registry, []⟩).offers))
    (get?_lines_takeTurn l turn) fun _ line => line.outbox.capacity_pushAll _

theorem finish (conn : ConnectionId) (error : Option SessionError) :
    (l.finish conn error).Provided rules :=
  h.congr (lines_finish ..)

theorem welcome (conn : ConnectionId) (f : Frame) :
    (Lobby.welcome rules conn f l).Provided rules := by
  unfold Lobby.welcome
  split
  · exact h.finish ..
  · rename_i handshake _
    have hpushed := h.push conn ⟨.handshakeConnected, handshake.reply.encode⟩
    split
    · rename_i heq
      rw [heq] at hpushed
      exact hpushed.finish ..
    · rename_i heq
      rw [heq] at hpushed
      exact hpushed.congr rfl

theorem handle (conn : ConnectionId) (f : Frame) :
    (Lobby.handle rules conn f l).Provided rules := by
  unfold Lobby.handle
  split
  · exact h
  · split
    · exact h.takeTurn _
    · exact h.welcome ..

theorem receive {i : Input} (hi : Lobby.receive rules l i = some l') : l'.Provided rules := by
  have hlink : ∀ conn f, (l.onLink conn f).Provided rules := fun conn f =>
    (h.modify conn (·.onWriter f) fun _ => rfl).congr (lines_enqueue ..)
  cases i with
  | connect v =>
    simp only [Lobby.receive, connect] at hi
    split at hi
    · cases hi
      exact h
    · obtain ⟨line, hline, rfl⟩ := Option.map_eq_some_iff.mp hi
      refine h.insert rfl ?_
      unfold Line.new? Outbox.new? at hline
      split at hline
      · cases hline
        rfl
      · cases hline
  | bytes conn pieces => cases hi; exact h.congr (lines_enqueue ..)
  | ending conn e => cases hi; exact h.congr (lines_enqueue ..)
  | stall conn => cases hi; exact hlink ..
  | resume conn => cases hi; exact hlink ..
  | sever conn => cases hi; exact hlink ..
  | idle => cases hi; exact h

theorem move (hm : Moves rules l l') : l'.Provided rules := by
  cases hm with
  | receive hi => exact h.receive hi
  | take => exact h.congr rfl
  | read => exact h.congr rfl
  | handle gatekeeper conn f =>
    -- gatekeepers come and go, and the configuration stays
    have hunder : l.Provided (rules.under gatekeeper) := ⟨h.capacity_eq⟩
    exact ⟨(hunder.handle conn f).capacity_eq⟩
  | finish conn error => exact h.finish conn error
  | depart conn =>
    have hreleased := (h.takeTurn (Session.depart rules conn)).modify conn Line.release fun _ => rfl
    exact hreleased.congr (lines_enqueue ..)
  | write conn =>
    unfold write
    split
    · exact h
    · rename_i line hline
      exact h.insert (lines_updateLine ..)
        ((line.capacity_write rules.checksum).trans (h.capacity_eq conn line hline))
  | collect =>
    exact h.map (fun _ line => line.collect.2) (fun _ => Table.get?_mapValues ..) fun _ _ => rfl

end Provided

/-- A queue has the capacity that the configuration says. -/
theorem Reached.capacity_eq {rules : Rules} {l : Lobby} (h : Reached rules l) {conn : ConnectionId}
    {line : Line} (hline : l.lines.get? conn = some line) :
    line.outbox.capacity = rules.config.outboxCapacity := by
  have hprovided : l.Provided rules := by
    clear hline
    induction h with
    | opened => exact ⟨nofun⟩
    | move _ hm ih => exact ih.move hm
  exact hprovided.capacity_eq conn line hline

end Lobby

/-! ## Names that can be told -/

/-- The name of every user can be told in a notice. -/
def Registry.NamesFit (reg : Registry) : Prop :=
  ∀ c uid name, reg.profile? c = some (uid, name) →
    (Message.userLoggedIn ⟨uid.number, name⟩).fits

/-- A user who comes has a name that was read from a frame, and the others keep theirs. -/
theorem Event.namesFit_turn (rules : Rules) {e : Event} {reg : Registry} (hread : e.Readable)
    (h : reg.NamesFit) : (e.turn rules ⟨reg, []⟩).registry.NamesFit := by
  intro c uid name hprofile
  by_cases hdeparts : e = .departure c
  · obtain rfl := hdeparts
    obtain ⟨j, hj⟩ := (SameAccounts.logOut reg c).account?_eq c
    rw [registry_turn] at hprofile
    change (Deed.afterAll reg (Session.departureDeeds reg c)).profile? c = _ at hprofile
    rw [Session.afterAll_departureDeeds, profile?, hj, account?_withoutAccount, if_pos rfl]
      at hprofile
    cases hprofile
  · rcases e.profile?_turn rules reg hdeparts with
      hsame | ⟨v, f, r, nickname, rfl, -, hr, hname, -, hnew⟩
    · exact h c uid name (hsame ▸ hprofile)
    · obtain ⟨rfl, rfl⟩ := Prod.mk.inj (Option.some.inj (hprofile.symm.trans hnew))
      exact Session.fits_userLoggedIn (Frame.Sound.length_payload_le hread) hr hname _

theorem Lobby.Passes.namesFit {rules : Rules} {l : Lobby} {ms : List Moment}
    (h : Passes rules opened ms l) (hread : ∀ m ∈ ms, m.event.Readable) : l.registry.NamesFit :=
  h.preserves hread nofun fun _ _ _ hread hfit => Event.namesFit_turn _ hread hfit

theorem Registry.NamesFit.setSubscription {reg : Registry} (h : reg.NamesFit)
    (conn : ConnectionId) (t : Topic) (on : Bool) : (reg.setSubscription conn t on).2.NamesFit := by
  intro c uid name hprofile
  have hsame : (reg.setSubscription conn t on).2.profile? c = reg.profile? c :=
    @Call.SparesUsers.profile?_eq (.setSubscription conn t on) trivial reg c
  exact h c uid name (hsame ▸ hprofile)

/-! ## What is shown -/

/-- What a client is shown when it starts to watch rooms. -/
def Registry.roomScript (reg : Registry) (ticketId : UInt32) : List Message :=
  reg.roomsInOrder.map (fun room => .gameServerData (room.snapshot ticketId)) ++
    [.resultMessage (.ok ticketId)]

/-- The rooms are the same before the client is put among those who watch and after. -/
theorem Session.handle_watchRooms {rules : Rules} {v : Visitor} {reg : Registry} {f : Frame}
    {q : RegObserverServerList} (hrequest : request? f = some (.watchRooms q)) {a : Account}
    (ha : reg.account? v.conn = some a) :
    handle rules v f ⟨reg, []⟩ = ⟨(reg.setSubscription v.conn .rooms true).2,
      (reg.roomScript q.ticketId).map fun m => ⟨v.conn, m⟩⟩ := by
  refine @handle_of_script _ _ _ _ _ (.setSubscription v.conn .rooms true) _ hrequest ?_
  have hrooms : (reg.setSubscription v.conn .rooms true).2.roomsInOrder = reg.roomsInOrder := by
    unfold setSubscription
    split <;> rfl
  rw [plan, subscribePlan_of_some ha, hrooms, roomScript, List.map_append, List.map_map]
  rfl

theorem Registry.AllFit.fits_roomScript {reg : Registry} (h : reg.AllFit) {ticketId : UInt32} :
    ∀ m ∈ reg.roomScript ticketId, m.fits := by
  refine List.forall_mem_append.mpr ⟨fun m hm => ?_, List.forall_mem_singleton.mpr rfl⟩
  obtain ⟨room, hroom, rfl⟩ := List.mem_map.mp hm
  exact (room.fits_snapshot_iff ticketId).mpr (h.mem_values (mem_ascending.mp hroom))

theorem Registry.NamesFit.fits_loginScript {reg : Registry} (h : reg.NamesFit)
    {ticketId : UInt32} : ∀ m ∈ reg.loginScript ticketId, m.fits := by
  refine List.forall_mem_cons.mpr ⟨rfl, fun m hm => ?_⟩
  obtain ⟨a, ha, rfl⟩ := List.mem_map.mp hm
  obtain ⟨c, hc⟩ := Table.mem_values_iff.mp (List.mem_filter.mp (mem_ascending.mp ha)).1
  exact h c a.uid a.name (congrArg (Option.map _) hc)

/-! ## Bursts -/

namespace Lobby

/-- A client with an empty queue is sent messages at once. Its queue gets those that fit a frame,
up to the capacity that the configuration says, and a kick is stored if there are more. Nobody else
gets anything. -/
structure Burst (rules : Rules) (l : Lobby) (conn : ConnectionId) (ms : List Message) (l' : Lobby) :
    Prop where
  others_eq : ∀ c, c ≠ conn → l'.lines.get? c = l.lines.get? c
  line_eq : l'.lines.get? conn = (l.lines.get? conn).map fun line =>
    { line with
      outbox.queue :=
        ((ms.filter Message.fits).take rules.config.outboxCapacity).map (·.frame)
      outbox.kicked := line.outbox.kicked ||
        decide (rules.config.outboxCapacity < (ms.filter Message.fits).length) }

/-- What a turn does to queues that sends something to one client. -/
theorem burst_takeTurn {rules : Rules} {l : Lobby} (h : Reached rules l) {turn : Turn → Turn}
    {conn : ConnectionId} {line : Line} (hline : l.lines.get? conn = some line)
    (hopen : line.outbox.closed = false) (hempty : line.outbox.queue = []) {ms : List Message}
    (hoffers : (turn ⟨l.registry, []⟩).offers = ms.map fun m => ⟨conn, m⟩) :
    Burst rules l conn ms (l.takeTurn turn) := by
  have hheard : ∀ c, Offer.messagesFor c (turn ⟨l.registry, []⟩).offers =
      if conn = c then ms else [] := fun c => hoffers ▸ Offer.messagesFor_script c conn ms
  refine ⟨fun c hc => ?_, ?_⟩
  · rw [get?_lines_takeTurn, hheard, if_neg (Ne.symm hc)]
    exact Option.map_id'
  · have hqueue := Outbox.pushAll_eq hopen (hempty ▸ Nat.zero_le _) ms
    rw [hempty, List.length_nil, Nat.sub_zero, Nat.zero_add, List.nil_append] at hqueue
    rw [get?_lines_takeTurn, hheard, if_pos rfl, hline, Option.map_some, Option.map_some,
      ← h.capacity_eq hline, Line.pushAll, hqueue]

/-- **Bursts.** Whatever state a lobby is in, a user whose queue is open and empty gets what it asks
to be shown in one burst:

* if it asks for the rooms, a notice of each room, with the ticket of the request and by the number
of the room, and then the answer; all of them fit a frame;
* if it asks for the logins, the answer and then a notice of each user who watches them after the
turn, itself among them, by the number of the user; all of them fit a frame, provided that the lobby
got there by frames that were read from streams.

So the client is kicked unless the capacity is more than the number of rooms, or more than the
number of those who watch logins. -/
theorem shown_in_one_burst {rules : Rules} {l : Lobby} (h : Reached rules l) {conn : ConnectionId}
    {s : OpenSession} (hs : l.sessions.get? conn = some s) (hgreeted : s.greeted) {a : Account}
    (ha : l.registry.account? conn = some a) {line : Line} (hline : l.lines.get? conn = some line)
    (hopen : line.outbox.closed = false) (hempty : line.outbox.queue = []) (f : Frame) :
    let l' := handle rules conn f l
    (∀ q, Session.request? f = some (.watchRooms q) →
      ∃ rooms : List Room, rooms.Perm l.registry.rooms.values ∧
        rooms.Pairwise (·.id.number ≤ ·.id.number) ∧
        let script := rooms.map (fun room => .gameServerData (room.snapshot q.ticketId)) ++
          [.resultMessage (.ok q.ticketId)]
        (∀ m ∈ script, m.fits) ∧ Burst rules l conn script l') ∧
    ∀ q, Session.request? f = some (.watchLogins q) →
      ∃ watchers : List Account,
        watchers.Perm (l'.registry.accounts.values.filter (·.subscriptions.get .logins)) ∧
        (∃ b ∈ watchers, b.uid = a.uid) ∧ watchers.Pairwise (·.uid.number ≤ ·.uid.number) ∧
        let script := .resultMessage (.ok q.ticketId) ::
          watchers.map fun b => .userLoggedIn ⟨b.uid.number, b.name⟩
        (∀ ms, Passes rules opened ms l → (∀ m ∈ ms, m.event.Readable) → ∀ m ∈ script, m.fits) ∧
          Burst rules l conn script l' := by
  intro l'
  obtain rfl := h.conn_visitor hs
  have hturn : l' = l.takeTurn (Session.handle rules s.visitor f) :=
    handle_of_greeted rules hs hgreeted f
  refine ⟨fun q hrequest => ?_, fun q hrequest => ?_⟩
  · have hshown := @Session.handle_watchRooms rules _ _ _ _ hrequest _ ha
    obtain ⟨ms, hpasses⟩ := h.passes
    refine ⟨l.registry.roomsInOrder, ascending_perm .., ascending_pairwise .., ?_⟩
    exact ⟨hpasses.allFit.fits_roomScript,
      hturn ▸ burst_takeTurn h hline hopen hempty (congrArg Turn.offers hshown)⟩
  · have hshown := @Session.handle_watchLogins rules _ _ _ _ hrequest _ ha
    have hregistry : l'.registry =
        (l.registry.setSubscription s.visitor.conn .logins true).2 := by
      rw [hturn, registry_takeTurn, hshown]
    have hself : l'.registry.WatchesLogins a.uid := by
      rw [hregistry, watchesLogins_setSubscription]
      exact .inr (congrArg (Option.map _) ha)
    refine ⟨l'.registry.subscribers .logins, ascending_perm .., exists_subscriber_iff.mpr hself,
      ascending_pairwise .., fun ms hpasses hread => ?_, ?_⟩
    · rw [hregistry]
      exact ((hpasses.namesFit hread).setSubscription _ _ _).fits_loginScript
    · rw [hregistry, hturn]
      exact burst_takeTurn h hline hopen hempty (congrArg Turn.offers hshown)

/-- A lobby after some inputs, with all the work that they cause done. -/
def worked (rules : Rules) (l : Lobby) (is : List Input) : Lobby :=
  is.foldl (fun l i => ((l.step rules i).map Prod.snd).getD l) l

theorem Reached.worked {rules : Rules} {l : Lobby} (h : Reached rules l) (is : List Input) :
    Reached rules (l.worked rules is) := by
  induction is generalizing l with
  | nil => exact h
  | cons i is ih =>
    refine ih ?_
    show Reached rules (((l.step rules i).map Prod.snd).getD l)
    cases hstep : l.step rules i with
    | none => exact h
    | some reported => exact h.step hstep

/-- Rules under which one frame may wait in a queue. -/
def hurried : Rules := ⟨{ Config.default with outboxCapacity := 1 }, .admitAll, .wordSum⟩

/-- A client connects, shakes hands and logs in. -/
def arrival : List Input :=
  [.connect (.numbered 1),
    .bytes ⟨1⟩ [(Frame.carrying .clientToServer .handshakeConnect
      (Handshake.ofClient 1 "" "").encode .wordSum).encode],
    .bytes ⟨1⟩ [(sentFrame (.requestLogin ⟨[0x41], [], [], 0, 11757, 1⟩)).encode]]

/-- As long as there are no rooms, a queue of one has room for the list of them. -/
theorem hurried_client_sees_no_rooms :
    let l := opened.worked hurried arrival
    let ask := sentFrame (.regObserverServerList ⟨true, 0, 0, 0, 3⟩)
    ((handle hurried ⟨1⟩ ask l).lines.get? ⟨1⟩).map
        (fun line => (line.outbox.queue, line.outbox.kicked)) =
      some ([(Message.resultMessage (.ok 3)).frame], false) := by
  intro l ask
  have hrooms : l.registry.rooms.values = [] := by decide +kernel
  have hsession : (l.sessions.get? ⟨1⟩).any (·.greeted) := by decide +kernel
  have huser : (l.registry.account? ⟨1⟩).isSome := by decide +kernel
  have hidle : (l.lines.get? ⟨1⟩).any fun line => line.outbox.closed = false ∧
      line.outbox.queue = [] ∧ line.outbox.kicked = false := by decide +kernel
  obtain ⟨s, hs, hgreeted⟩ := (Option.any_eq_true ..).mp hsession
  obtain ⟨a, ha⟩ := Option.isSome_iff_exists.mp huser
  obtain ⟨line, hline, hidle⟩ := (Option.any_eq_true ..).mp hidle
  obtain ⟨hopen, hempty, hkicked⟩ := of_decide_eq_true hidle
  obtain ⟨hshown, -⟩ :=
    shown_in_one_burst (Reached.opened.worked arrival) hs hgreeted ha hline hopen hempty ask
  obtain ⟨rooms, hperm, -, -, hburst⟩ := hshown ⟨true, 0, 0, 0, 3⟩ (by decide +kernel)
  obtain rfl : rooms = [] := List.perm_nil.mp (hrooms ▸ hperm)
  rw [hburst.line_eq, hline, Option.map_some, Option.map_some, hkicked]
  rfl

/-- A client that has read all it was sent, and whose connection takes everything at once, asks who
watches logins. That is the client itself, but its queue is full with the answer, so the notice is
lost and the session ends. The configuration has no fault. -/
theorem hurried_client_kicked :
    let l := opened.worked hurried arrival
    let ask := sentFrame (.regObserverUserLogin ⟨true, 2⟩)
    hurried.config.fault? = none ∧ Reached hurried l ∧
      (l.sessions.get? ⟨1⟩).any (·.greeted) ∧ l.registry.profile? ⟨1⟩ = some (⟨1⟩, [0x41]) ∧
      ((l.lines.get? ⟨1⟩).any fun line => line.outbox.queue = [] ∧ line.outbox.closed = false ∧
        line.outbox.kicked = false ∧ line.writer = .start .flowing) ∧
      Session.request? ask = some (.watchLogins ⟨true, 2⟩) ∧
      ((handle hurried ⟨1⟩ ask l).lines.get? ⟨1⟩).map
          (fun line => (line.outbox.queue, line.outbox.kicked)) =
        some ([(Message.resultMessage (.ok 2)).frame], true) ∧
      (l.step hurried (.bytes ⟨1⟩ [ask.encode])).map (·.1.ended) = some [⟨⟨1⟩, none⟩] := by
  intro l ask
  exact ⟨by decide +kernel, Reached.opened.worked arrival, by decide +kernel, by decide +kernel,
    by decide +kernel, by decide +kernel, by decide +kernel, by decide +kernel⟩

end Lobby

end GameLobby
