import GameLobby.Proofs.Lobby.Moves
import GameLobby.Proofs.Lobby.Reach
import GameLobby.Proofs.Lobby.Users

/-!
# Watchers of logins see no ghosts and miss no one

A turn tells a watcher of logins just what becomes of users in it (`Event.reports`), and a client
that starts to watch is told of all who watch (`Lobby.shown_watchLogins`). So what is told of a user
is the course that the user takes, after one notice if the user was watching by then. Main
statement: `roster_shows_users`.
-/

namespace GameLobby

open Registry

/-! ## Turns -/

section Turns

variable {rules : Rules} {reg : Registry} {c : ConnectionId}

/-- A watcher of logins is told of each user what becomes of the user, and goes on watching. -/
structure Deed.Reports (rules : Rules) (c : ConnectionId) (reg : Registry) (ds : List Deed) :
    Prop where
  told : ∀ u, Offer.told c u (offersAll rules reg ds) = (reg.change? (afterAll reg ds) u).toList
  watching : (afterAll reg ds).subscribes .logins c

/-- If nothing is done to users, there is nothing to tell. -/
theorem Deed.reports_of_discreet {ds : List Deed} (h : ∀ d ∈ ds, d.Discreet c)
    (hsub : reg.subscribes .logins c) : Reports rules c reg ds := by
  obtain ⟨hsame, -, hkept⟩ := afterAll_discreet h reg
  refine ⟨fun u => ?_, hkept hsub⟩
  rw [told_offersAll_discreet rules h, hsame.change?_eq]
  rfl

/-- A watcher is told of a user who is let in. -/
theorem Deed.reports_letIn {v : Visitor} {nickname : RawText} (ticketId : UInt32)
    (hatt : reg.Attended) (hl : reg.UidsLeft) (hsub : reg.subscribes .logins c)
    (hnone : reg.account? v.conn = none)
    (hfits : (Message.userLoggedIn ⟨reg.lastUid + 1, nickname⟩).fits) :
    Reports rules c reg (Session.letIn v reg nickname ticketId) := by
  have hcall : (Call.logIn v.conn nickname v.conn).Housed := rfl
  have hho := hatt.housed.apply hcall
  have hsub' : ((Call.logIn v.conn nickname v.conn).apply reg).subscribes .logins c :=
    subscribes_apply (by simp) (by simp) hsub
  refine ⟨fun u => ?_, hsub'⟩
  show Offer.told c u ([⟨v.conn, .resultMessage (.ok ticketId)⟩] ++
      ((News.loggedIn ⟨reg.lastUid + 1⟩ nickname).offers rules.config.announceLogins
        ((Call.logIn v.conn nickname v.conn).apply reg) ++ [])) =
    (reg.change? ((Call.logIn v.conn nickname v.conn).apply reg) u).toList
  have hanswer : Offer.told c u [⟨v.conn, .resultMessage (.ok ticketId)⟩] = [] :=
    Offer.told_of_silent fun o ho _ => List.mem_singleton.mp ho ▸ rfl
  have hchange : reg.change? ((Call.logIn v.conn nickname v.conn).apply reg) u =
      if ⟨reg.lastUid + 1⟩ = u then some .came else none :=
    hatt.change?_logIn hl hnone nickname v.conn u
  have hnews : (News.loggedIn ⟨reg.lastUid + 1⟩ nickname).message.fits := hfits
  rw [Offer.told_append, hanswer, List.nil_append, List.append_nil,
    News.told_offers _ hho hnews, hchange]
  exact if_pos hsub'

/-- What becomes of rooms in a departure says nothing of users, and what becomes of the account is
told to those who watch logins. -/
theorem Session.told_farewell (rules : Rules) (hho : reg.Housed) (d : Logout) (u : UserId) :
    Offer.told c u ((farewell d).flatMap (·.offers rules.config.announceLogins reg)) =
      if reg.subscribes .logins c then if d.account.uid = u then [.went] else [] else [] := by
  have hrooms : ∀ news ∈ (d.ownedRoom.map fun room =>
        News.roomRemoved ⟨room.id.number, room.running, 0⟩).toList ++
      (d.leftRoom.map fun room => News.roomUpdated (room.snapshot 0)).toList,
      (Deed.tell news).Discreet c := by
    intro news hnews
    rcases List.mem_append.mp hnews with hnews | hnews
    · obtain ⟨room, -, rfl⟩ := Option.map_eq_some_iff.mp (Option.mem_toList.mp hnews)
      exact fun _ => rfl
    · obtain ⟨room, -, rfl⟩ := Option.map_eq_some_iff.mp (Option.mem_toList.mp hnews)
      exact fun _ => rfl
  have hfits : (News.loggedOut d.account.uid d.account.name).message.fits :=
    Message.fits_userLoggedOut _
  rw [farewell, List.flatMap_append, Offer.told_append, List.flatMap_singleton,
    News.told_offers _ hho hfits, Offer.told_of_silent, List.nil_append]
  · unfold News.message News.topic Message.tells?
    dsimp only
    split
    · split <;> rfl
    · rfl
  · intro o ho hc
    obtain ⟨news, hnews, ho⟩ := List.mem_flatMap.mp ho
    exact @Deed.Discreet.silent c (.tell news) reg (hrooms news hnews) rules o ho hc u

/-- A watcher is told of a user who departs. -/
theorem Deed.reports_departure {conn : ConnectionId} (hatt : reg.Attended)
    (hsub : reg.subscribes .logins c) (hc : conn ≠ c) :
    Reports rules c reg (Session.departureDeeds reg conn) := by
  have hho : (reg.logOut conn).2.Housed := @Housed.apply reg hatt.housed (.logOut conn) trivial
  have hsub' : (reg.logOut conn).2.subscribes .logins c := by
    refine @subscribes_apply reg (.logOut conn) .logins c (fun heq => hc ?_) (by simp) hsub
    cases heq
    rfl
  have hafter := Session.afterAll_departureDeeds reg conn
  refine ⟨fun u => ?_, hafter ▸ hsub'⟩
  rw [hafter, Session.departureDeeds]
  rcases logOut_cases reg conn with ⟨-, heq⟩ | ⟨a, ha, hout, -⟩
  · rw [heq, (SameUsers.refl reg).change?_eq]
    rfl
  rw [hout, hatt.change?_logOut ha]
  show Offer.told c u (offersAll rules (reg.logOut conn).2 (List.map _ _)) = _
  rw [offersAll_tells, Session.told_farewell _ hho, if_pos hsub']
  split <;> rfl

/-- **News of users.** A turn tells a watcher of logins what becomes of users in it, unless it is
the watcher's own turn to watch from the start or no more. -/
theorem Event.reports (rules : Rules) {e : Event} (hatt : reg.Attended) (hl : reg.UidsLeft)
    (hread : e.Readable) (hstays : ¬ e.RevisesLogins c) (hsub : reg.subscribes .logins c) :
    Deed.Reports rules c reg (e.deeds rules reg) := by
  rcases Event.deeds_cases rules reg hstays with hds | ⟨v, nickname, ticketId, hnone, hfits, heq⟩ |
    ⟨conn, hc, rfl⟩
  · exact Deed.reports_of_discreet hds hsub
  · rw [heq]
    exact Deed.reports_letIn ticketId hatt hl hsub hnone (hfits hread)
  · exact Deed.reports_departure hatt hsub hc

end Turns

/-! ## Starting to watch -/

/-- The user with a number watches logins. -/
def Registry.WatchesLogins (reg : Registry) (u : UserId) : Prop :=
  ∃ a ∈ reg.accounts.values, a.subscriptions.get .logins ∧ a.uid = u

instance (reg : Registry) (u : UserId) : Decidable (reg.WatchesLogins u) :=
  inferInstanceAs (Decidable (∃ a ∈ reg.accounts.values, a.subscriptions.get .logins ∧ a.uid = u))

theorem Registry.WatchesLogins.live {reg : Registry} {u : UserId} (h : reg.WatchesLogins u) :
    reg.Live u := by
  obtain ⟨a, ha, -, huid⟩ := h
  exact ⟨a, ha, huid⟩

theorem Registry.watchesLogins_iff {reg : Registry} {u : UserId} :
    reg.WatchesLogins u ↔ ∃ c, reg.subscribes .logins c ∧ reg.uid? c = some u := by
  unfold subscribes uid?
  constructor
  · rintro ⟨a, ha, hsub, rfl⟩
    obtain ⟨c, hc⟩ : ∃ c, reg.account? c = some a := Table.mem_values_iff.mp ha
    exact ⟨c, by rw [hc]; exact hsub, congrArg (Option.map _) hc⟩
  · rintro ⟨c, hsub, huid⟩
    obtain ⟨a, ha, rfl⟩ := Option.map_eq_some_iff.mp huid
    rw [ha] at hsub
    exact ⟨a, Table.mem_values_iff.mpr ⟨c, ha⟩, hsub, rfl⟩

theorem Registry.exists_subscriber_iff {reg : Registry} {u : UserId} :
    (∃ a ∈ reg.subscribers .logins, a.uid = u) ↔ reg.WatchesLogins u := by
  simp only [subscribers, mem_ascending, List.mem_filter, and_assoc]
  exact .rfl

theorem Registry.subscribes_setSubscription (reg : Registry) (conn c : ConnectionId) (t : Topic) :
    (reg.setSubscription conn t true).2.subscribes t c ↔
      reg.subscribes t c ∨ c = conn ∧ (reg.account? c).isSome := by
  unfold subscribes
  rw [(setSubscription_edited reg conn t true).account?_eq]
  cases reg.account? c with
  | none => simp
  | some a => by_cases hc : c = conn <;> simp [hc]

/-- Who starts to watch joins those who do. -/
theorem Registry.watchesLogins_setSubscription (reg : Registry) (conn : ConnectionId)
    (u : UserId) :
    (reg.setSubscription conn .logins true).2.WatchesLogins u ↔
      reg.WatchesLogins u ∨ reg.uid? conn = some u := by
  rw [watchesLogins_iff, watchesLogins_iff]
  simp only [subscribes_setSubscription, (sameUsers_setSubscription ..).uid?_eq]
  constructor
  · rintro ⟨c, hsub | ⟨rfl, -⟩, huid⟩
    · exact .inl ⟨c, hsub, huid⟩
    · exact .inr huid
  · rintro (⟨c, hsub, huid⟩ | huid)
    · exact ⟨c, .inl hsub, huid⟩
    · obtain ⟨a, ha, -⟩ := Option.map_eq_some_iff.mp huid
      exact ⟨conn, .inr ⟨rfl, by rw [ha]; rfl⟩, huid⟩

/-- Notices about users with different numbers tell of each of them once. -/
theorem Message.tells?_logins {as : List Account} (h : (as.map (·.uid)).Nodup) (u : UserId) :
    (as.map fun a => Message.userLoggedIn ⟨a.uid.number, a.name⟩).filterMap (·.tells? u) =
      if ∃ a ∈ as, a.uid = u then [.came] else [] := by
  induction as with
  | nil => rfl
  | cons a as ih =>
    obtain ⟨hne, has⟩ := List.nodup_cons.mp h
    have htells : (Message.userLoggedIn ⟨a.uid.number, a.name⟩).tells? u =
        if a.uid = u then some .came else none := rfl
    rw [List.map_cons, List.filterMap_cons, htells, ih has]
    by_cases hu : a.uid = u
    · have hrest : ¬ ∃ b ∈ as, b.uid = u := by
        rintro ⟨b, hb, hbu⟩
        exact hne (List.mem_map.mpr ⟨b, hb, hbu.trans hu.symm⟩)
      rw [if_pos hu, if_neg hrest, if_pos ⟨a, List.mem_cons_self, hu⟩]
    · rw [if_neg hu]
      simp only [List.mem_cons, exists_eq_or_imp, hu, false_or]

/-- What a client is shown when it starts to watch logins, after it was put among those who do. -/
def Registry.loginScript (reg : Registry) (ticketId : UInt32) : List Message :=
  .resultMessage (.ok ticketId) ::
    (reg.subscribers .logins).map fun a => .userLoggedIn ⟨a.uid.number, a.name⟩

namespace Session

variable {rules : Rules} {v : Visitor} {reg : Registry}

theorem handle_watchLogins {f : Frame} {r : RegObserverUserLogin}
    (hrequest : request? f = some (.watchLogins r)) {a : Account}
    (ha : reg.account? v.conn = some a) :
    handle rules v f ⟨reg, []⟩ =
      ⟨(reg.setSubscription v.conn .logins true).2,
        ((reg.setSubscription v.conn .logins true).2.loginScript r.ticketId).map
          fun m => ⟨v.conn, m⟩⟩ := by
  refine @handle_of_script _ _ _ _ _ (.setSubscription v.conn .logins true) _ hrequest ?_
  rw [plan, subscribePlan_of_some ha, loginScript, List.map_cons, List.map_map]
  rfl

theorem account?_of_served_watchLogins {r : RegObserverUserLogin}
    (hserved : (Handler.run (carryOut rules v (.watchLogins r)) ⟨reg, []⟩).1 = .ok ()) :
    ∃ a, reg.account? v.conn = some a := by
  have hplan := plan_of_served hserved
  simp only [plan] at hplan
  obtain ⟨a, ha, -⟩ := subscribePlan_ok hplan
  exact ⟨a, ha⟩

/-- Whoever is logged in may watch. -/
theorem served_watchLogins (r : RegObserverUserLogin) (hin : (reg.account? v.conn).isSome) :
    (Handler.run (carryOut rules v (.watchLogins r)) ⟨reg, []⟩).1 = .ok () := by
  obtain ⟨a, ha⟩ := Option.isSome_iff_exists.mp hin
  exact served_of_plan (by rw [plan, subscribePlan_of_some ha])

end Session

/-! ## What a course comes to -/

section Courses

variable {there later : Bool} {cs : List Presence} (h : Course there cs later) {w : Prop}
  [Decidable w] (hw : w → there)

include h hw

/-- If a user who is there was announced, it goes at most, and any other may come and then go. -/
theorem Course.announced_eq : (if w then [Presence.came] else []) ++ cs =
    (if w ∨ .came ∈ cs then [.came] else []) ++ if .went ∈ cs then [.went] else [] := by
  by_cases hwatching : w
  · obtain rfl : there = true := hw hwatching
    cases h <;> simp [hwatching]
  · cases h <;> simp [hwatching]

/-- The last that is told of a user is that it came, if it is there and was told of. -/
theorem Course.getLast?_announced :
    ((if w then [Presence.came] else []) ++ cs).getLast? = some .came ↔
    later ∧ (w ∨ .came ∈ cs) := by
  by_cases hwatching : w
  · obtain rfl : there = true := hw hwatching
    cases h <;> simp [hwatching]
  · cases h <;> simp [hwatching]

end Courses

/-! ## Rosters over histories -/

namespace Lobby

/-- A connection that takes in all that it is offered in a turn is told all of it. -/
theorem told_moment {rules : Rules} {l : Lobby} {e : Event} {c : ConnectionId}
    (haccepted : (l.moment rules e).AcceptedBy c) (u : UserId) :
    OutboundFrame.told u ((l.moment rules e).frames c) =
      Offer.told c u (Deed.offersAll rules l.registry (e.deeds rules l.registry)) := by
  rw [haccepted.frames_eq, offers_moment, OutboundFrame.told_frames u (fits_of_accepted haccepted)]
  rfl

section FirstList

variable {rules : Rules} {l : Lobby} {v : Visitor} {f : Frame} {r : RegObserverUserLogin}
  (hrequest : Session.request? f = some (.watchLogins r))
  (hserved : (Handler.run (Session.carryOut rules v (.watchLogins r)) ⟨l.registry, []⟩).1 = .ok ())

include hrequest hserved

/-- The client's account has subscribed. -/
theorem registry_watchLogins : (l.takeTurn ((Event.frame v f).turn rules)).registry =
    (l.registry.setSubscription v.conn .logins true).2 := by
  obtain ⟨a, ha⟩ := Session.account?_of_served_watchLogins hserved
  rw [registry_takeTurn]
  exact congrArg Turn.registry (Session.handle_watchLogins hrequest ha)

theorem subscribes_watchLogins :
    (l.takeTurn ((Event.frame v f).turn rules)).registry.subscribes .logins v.conn := by
  obtain ⟨a, ha⟩ := Session.account?_of_served_watchLogins hserved
  rw [registry_watchLogins hrequest hserved]
  exact (subscribes_setSubscription ..).mpr (.inr ⟨rfl, by rw [ha]; rfl⟩)

/-- Everything that is sent is sent to the client. -/
theorem messagesFor_watchLogins :
    Offer.messagesFor v.conn
      (Deed.offersAll rules l.registry ((Event.frame v f).deeds rules l.registry)) =
        (l.registry.setSubscription v.conn .logins true).2.loginScript r.ticketId := by
  obtain ⟨a, ha⟩ := Session.account?_of_served_watchLogins hserved
  rw [← Event.offers_turn]
  show Offer.messagesFor v.conn (Session.handle rules v f ⟨l.registry, []⟩).offers = _
  rw [Session.handle_watchLogins hrequest ha, Offer.messagesFor_script, if_pos rfl]

/-- **The first list.** A client that starts to watch logins gets its answer and then a notice about
each user who watches. -/
theorem shown_watchLogins (hnum : l.registry.Numbered)
    (haccepted : (l.moment rules (.frame v f)).AcceptedBy v.conn) :
    ∃ shown, (l.moment rules (.frame v f)).frames v.conn =
        (Message.resultMessage (.ok r.ticketId)).frame :: shown ∧
      ∀ u, OutboundFrame.told u shown =
        if l.registry.WatchesLogins u ∨ l.registry.uid? v.conn = some u then [.came] else [] := by
  have hmessages := messagesFor_watchLogins hrequest hserved
  have hwatches := watchesLogins_setSubscription l.registry v.conn
  have hnum' : (l.registry.setSubscription v.conn .logins true).2.Numbered :=
    (sameUsers_setSubscription ..).numbered hnum
  generalize (l.registry.setSubscription v.conn .logins true).2 = reg at hmessages hwatches hnum'
  have hfits := fits_of_accepted haccepted
  rw [hmessages] at hfits
  have hnodup : ((reg.subscribers .logins).map (·.uid)).Nodup :=
    ((ascending_perm _ _).map _).nodup_iff.mpr
      (hnum'.nodup_map_uid.sublist (List.filter_sublist.map _))
  refine ⟨((reg.subscribers .logins).map fun a => Message.userLoggedIn ⟨a.uid.number, a.name⟩).map
    (·.frame), ?_, fun u => ?_⟩
  · rw [haccepted.frames_eq, offers_moment, hmessages, loginScript, List.map_cons]
  · rw [OutboundFrame.told_frames u (List.forall_mem_cons.mp hfits).2, Message.tells?_logins hnodup]
    simp only [exists_subscriber_iff, hwatches]

end FirstList

/-- **Watching.** What a watcher of logins is told of a user is what becomes of the user, turn by
turn. -/
theorem Passes.told {rules : Rules} {l₀ l : Lobby} {ms : List Moment} (h : Passes rules l₀ ms l)
    {c : ConnectionId} (hatt : l₀.registry.Attended) (hsub : l₀.registry.subscribes .logins c)
    (hl : ∀ m ∈ ms, m.registry.UidsLeft) (hread : ∀ m ∈ ms, m.event.Readable)
    (hstays : ∀ m ∈ ms, ¬ m.event.RevisesLogins c) (haccepted : ∀ m ∈ ms, m.AcceptedBy c) :
    ∀ m ∈ ms, ∀ u, OutboundFrame.told u (m.frames c) = (m.change? u).toList := by
  let I (reg : Registry) (ms : List Moment) : Prop := reg.Attended ∧ reg.subscribes .logins c ∧
    ∀ m ∈ ms, ∀ u, OutboundFrame.told u (m.frames c) = (m.change? u).toList
  have hkept : I l.registry ms := by
    induction h with
    | refl => exact ⟨hatt, hsub, List.forall_mem_nil _⟩
    | quiet _ hq ih =>
      rw [hq.registry_eq]
      exact ih hl hread hstays haccepted
    | @turn ms l' _ gatekeeper e ih =>
      simp only [List.forall_mem_append, List.forall_mem_singleton] at hl hread hstays haccepted
      obtain ⟨hatt', hsub', htold⟩ := ih hl.1 hread.1 hstays.1 haccepted.1
      have hreports := e.reports (rules.under gatekeeper) hatt' hl.2 hread.2 hstays.2 hsub'
      rw [registry_takeTurn]
      refine ⟨(e.attended_turn _ hatt' hl.2).1, ?_,
        List.forall_mem_append.mpr ⟨htold, List.forall_mem_singleton.mpr fun u => ?_⟩⟩
      · rw [Event.registry_turn]
        exact hreports.watching
      · rw [told_moment haccepted.2, hreports.told, ← Event.registry_turn]
        rfl
  exact hkept.2.2

/-- **Rosters.** A client starts to watch logins and goes on watching, and its outbox takes every
push in. Then, whatever has happened since, the frames that were queued for it after the answer make
up a roster of the users who are there and either were watching when it started, itself among them,
or came since. Of each user who was watching or came since the client was told once that it came,
and then of each user who has gone since, once that it went; what happened since was told in the
turn in which it happened. -/
theorem roster_shows_users {rules : Rules} {before after : List Moment} {l₀ l : Lobby}
    {v : Visitor} {f : Frame} {r : RegObserverUserLogin} (hbefore : Passes rules opened before l₀)
    (hrequest : Session.request? f = some (.watchLogins r))
    (hserved :
      (Handler.run (Session.carryOut rules v (.watchLogins r)) ⟨l₀.registry, []⟩).1 = .ok ())
    (hafter : Passes rules (l₀.takeTurn ((Event.frame v f).turn rules)) after l)
    (hl : ∀ m ∈ before ++ l₀.moment rules (.frame v f) :: after, m.registry.UidsLeft)
    (hread : ∀ m ∈ after, m.event.Readable)
    (hstays : ∀ m ∈ after, ¬ m.event.RevisesLogins v.conn)
    (haccepted : ∀ m ∈ l₀.moment rules (.frame v f) :: after, m.AcceptedBy v.conn) :
    ∃ shown, (l₀.moment rules (.frame v f)).frames v.conn =
        (Message.resultMessage (.ok r.ticketId)).frame :: shown ∧
      (∀ u, u ∈ Roster.receiveAll [] (shown ++ after.flatMap (·.frames v.conn)) ↔
        l.registry.Live u ∧ ((l₀.registry.WatchesLogins u ∨ l₀.registry.uid? v.conn = some u) ∨
          ∃ m ∈ after, m.change? u = some .came)) ∧
      (∀ u, OutboundFrame.told u (shown ++ after.flatMap (·.frames v.conn)) =
        (if (l₀.registry.WatchesLogins u ∨ l₀.registry.uid? v.conn = some u) ∨
            ∃ m ∈ after, m.change? u = some .came then [.came] else []) ++
          if ∃ m ∈ after, m.change? u = some .went then [.went] else []) ∧
      ∀ m ∈ after, ∀ u,
        OutboundFrame.told u (m.frames v.conn) = (m.change? u).toList := by
  simp only [List.forall_mem_append, List.forall_mem_cons] at hl haccepted
  obtain ⟨hlbefore, hl₀, hlafter⟩ := hl
  have hatt₀ := hbefore.attended hlbefore
  have hatt := (Event.frame v f).attended_turn rules hatt₀ hl₀
  rw [← registry_takeTurn] at hatt
  have hsame : l₀.registry.SameUsers (l₀.takeTurn ((Event.frame v f).turn rules)).registry :=
    registry_watchLogins hrequest hserved ▸ sameUsers_setSubscription ..
  obtain ⟨shown, hframes, hshown⟩ :=
    shown_watchLogins hrequest hserved hatt₀.toNumbered haccepted.1
  have htold := hafter.told hatt.1 (subscribes_watchLogins hrequest hserved) hlafter hread hstays
    haccepted.2
  -- what was told is one notice for those who watched, then the course of the user
  have hall : ∀ u, OutboundFrame.told u (shown ++ after.flatMap (·.frames v.conn)) =
      (if l₀.registry.WatchesLogins u ∨ l₀.registry.uid? v.conn = some u then [.came] else []) ++
        after.filterMap (·.change? u) := by
    intro u
    rw [OutboundFrame.told_append, hshown, OutboundFrame.told_flatMap fun m hm => htold m hm u]
  have hcourse := hafter.course hatt.1 hlafter
  have hthere : ∀ u, l₀.registry.WatchesLogins u ∨ l₀.registry.uid? v.conn = some u →
      decide ((l₀.takeTurn ((Event.frame v f).turn rules)).registry.Live u) = true := by
    intro u hwatching
    rw [decide_eq_true_iff, hsame.live_iff]
    rcases hwatching with hwatching | huid
    · exact hwatching.live
    · exact live_iff.mpr ⟨v.conn, huid⟩
  refine ⟨shown, hframes, fun u => ?_, fun u => ?_, htold⟩
  · rw [Roster.mem_receiveAll, hall, (hcourse u).getLast?_announced (hthere u),
      decide_eq_true_iff, List.mem_filterMap]
    simp only [List.not_mem_nil, and_false, or_false]
  · rw [hall, (hcourse u).announced_eq (hthere u)]
    simp only [List.mem_filterMap]

/-- Somebody comes, logs in a second time, goes, and somebody else comes. -/
def callers : List Event :=
  [.sent 2 (.requestLogin ⟨[0x42], [], [], 0, 11757, 1⟩),
    .sent 2 (.requestLogin ⟨[0x42], [], [], 0, 11757, 2⟩),
    .departure ⟨2⟩,
    .sent 3 (.requestLogin ⟨[0x43], [], [], 0, 11757, 1⟩)]

/-- The first user watches logins while there are callers, and is told of each of them once. -/
theorem host_sees_callers :
    let l₀ := takeTurns .plain (opened.visitedBy (.numbered 1))
      [.sent 1 (.requestLogin ⟨[0x41], [], [], 0, 11757, 1⟩)]
    let watch := Event.sent 1 (.regObserverUserLogin ⟨true, 7⟩)
    let after := moments .plain (l₀.takeTurn (watch.turn .plain)) callers
    ∃ shown, (l₀.moment .plain watch).frames ⟨1⟩ =
        (Message.resultMessage (.ok 7)).frame :: shown ∧
      (∀ u ∈ [⟨1⟩, ⟨3⟩], u ∈ Roster.receiveAll [] (shown ++ after.flatMap (·.frames ⟨1⟩))) ∧
      OutboundFrame.told ⟨2⟩ (shown ++ after.flatMap (·.frames ⟨1⟩)) = [.came, .went] := by
  intro l₀ watch after
  have hbefore := (Passes.refl.quiet (quiet_visitedBy opened (.numbered 1))).trans
    (passes_takeTurns .plain (opened.visitedBy (.numbered 1))
      [.sent 1 (.requestLogin ⟨[0x41], [], [], 0, 11757, 1⟩)])
  have hin : (l₀.registry.account? ⟨1⟩).isSome := by decide +kernel
  have hrequest : Session.request? (.carrying .clientToServer .applicationMessage
      (Message.regObserverUserLogin ⟨true, 7⟩).payload .wordSum) =
        some (.watchLogins ⟨true, 7⟩) := by
    decide +kernel
  have hserved : (Handler.run (Session.carryOut .plain (.numbered 1)
      (.watchLogins ⟨true, 7⟩)) ⟨l₀.registry, []⟩).1 = .ok () :=
    Session.served_watchLogins _ hin
  have hl : ∀ m ∈ ([] ++ moments .plain (opened.visitedBy (.numbered 1))
      [.sent 1 (.requestLogin ⟨[0x41], [], [], 0, 11757, 1⟩)]) ++
      l₀.moment .plain watch :: after, m.registry.UidsLeft := by
    decide +kernel
  have hread : ∀ m ∈ after, m.event.Readable := by decide +kernel
  have hstays : ∀ m ∈ after, ¬ m.event.RevisesLogins ⟨1⟩ := by decide +kernel
  have haccepted : ∀ m ∈ l₀.moment .plain watch :: after, m.AcceptedBy ⟨1⟩ := by decide +kernel
  obtain ⟨shown, hframes, hroster, htold, -⟩ := roster_shows_users hbefore hrequest hserved
    (passes_takeTurns .plain (l₀.takeTurn (watch.turn .plain)) callers) hl hread hstays haccepted
  refine ⟨shown, hframes, fun u hu => (hroster u).mpr ?_, (htold ⟨2⟩).trans ?_⟩
  · have hthere : ∀ u ∈ [⟨1⟩, ⟨3⟩],
        (takeTurns .plain (l₀.takeTurn (watch.turn .plain)) callers).registry.Live u ∧
          ((l₀.registry.WatchesLogins u ∨ l₀.registry.uid? ⟨1⟩ = some u) ∨
            ∃ m ∈ after, m.change? u = some .came) := by
      decide +kernel
    exact hthere u hu
  · decide +kernel

end Lobby

end GameLobby
