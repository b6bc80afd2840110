import GameLobby.Proofs.Lobby.Departures
import GameLobby.Proofs.Lobby.Moves
import GameLobby.Proofs.Lobby.Users
import GameLobby.Proofs.Session.Outcome

/-!
# Logging in

A connection gets an account by a login or by the request for a new one, and no second one as long
as it is there. In between nothing happens to the number and the name of its user
(`Event.profile?_turn`), so the accounts that it gets in a history without a departure, after the
one that it had, are the one that it has in the end (`Lobby.Passes.created`). Main statement:
`one_account_per_session`.
-/

namespace GameLobby

open Registry

/-! ## Who a user is -/

namespace Registry

/-- The number and the name of the user of a connection. -/
def profile? (reg : Registry) (c : ConnectionId) : Option (UserId × RawText) :=
  (reg.account? c).map fun a => (a.uid, a.name)

variable {reg : Registry}

theorem profile?_eq_none_iff {c : ConnectionId} :
    reg.profile? c = none ↔ reg.account? c = none :=
  Option.map_eq_none_iff

/-- Users stay who they are in every call but a login and a logout. -/
theorem Call.SparesUsers.profile?_eq {call : Call} (h : call.SparesUsers) (reg : Registry)
    (c : ConnectionId) : (call.apply reg).profile? c = reg.profile? c := by
  unfold profile?
  cases ha : reg.account? c with
  | none =>
    rcases account?_apply_of_none call ha with hnone | ⟨name, outbox, rfl, -⟩
    · rw [hnone]
    · exact h.elim
  | some a =>
    obtain ⟨j, hj⟩ := account?_apply_eq call ha (by rintro rfl; exact h)
    rw [hj]
    rfl

/-- A logout does nothing to the other users. -/
theorem profile?_logOut {conn c : ConnectionId} (hc : conn ≠ c) :
    (reg.logOut conn).2.profile? c = reg.profile? c := by
  obtain ⟨j, hj⟩ := (SameAccounts.logOut reg conn).account?_eq c
  unfold profile?
  rw [hj, account?_withoutAccount, if_neg hc.symm, Option.map_map]
  rfl

/-- Who logs in has the next number and the name that it gave. -/
theorem profile?_logIn {conn : ConnectionId} (hnone : reg.account? conn = none) (name : RawText)
    (outbox c : ConnectionId) :
    (reg.logIn conn name outbox).2.profile? c =
      if c = conn then some (⟨reg.lastUid + 1⟩, name) else reg.profile? c := by
  unfold profile?
  rw [account?_logIn_of_none hnone]
  split <;> rfl

end Registry

theorem Deed.Discreet.profile?_afterAll {c : ConnectionId} {ds : List Deed}
    (h : ∀ d ∈ ds, d.Discreet c) (reg : Registry) (d : ConnectionId) :
    (afterAll reg ds).profile? d = reg.profile? d := by
  induction ds generalizing reg with
  | nil => rfl
  | cons e ds ih =>
    obtain ⟨he, hds⟩ := List.forall_mem_cons.mp h
    refine (ih hds (e.after reg)).trans ?_
    cases e with
    | call k => exact (Call.Discreet.sparesUsers he).profile?_eq reg d
    | send | tell | exhibit => rfl

/-! ## Who gets an account -/

/-- In a turn a user who does not depart stays the same user, or else comes by the own request to be
let in. -/
theorem Event.profile?_turn (rules : Rules) (reg : Registry) {e : Event} {c : ConnectionId}
    (hstays : e ≠ .departure c) :
    (e.turn rules ⟨reg, []⟩).registry.profile? c = reg.profile? c ∨
      ∃ v f r nickname, e = .frame v f ∧ v.conn = c ∧ Session.request? f = some r ∧
        r.nickname? = some nickname ∧ reg.account? c = none ∧
        (e.turn rules ⟨reg, []⟩).registry.profile? c = some (⟨reg.lastUid + 1⟩, nickname) := by
  rw [Event.registry_turn]
  cases e with
  | departure conn =>
    refine .inl ?_
    show (Deed.afterAll reg (Session.departureDeeds reg conn)).profile? c = _
    rw [Session.afterAll_departureDeeds, profile?_logOut fun hc => hstays (congrArg _ hc)]
  | frame v f =>
    show (Deed.afterAll reg (Session.frameDeeds rules v reg f)).profile? c = _ ∨ _
    rcases Session.frameDeeds_cases rules v reg f with heq | ⟨r, ds, hr, hplan, heq⟩ | ⟨answer, heq⟩
    · exact .inl (by rw [heq]; rfl)
    · -- what the deeds tell is of no matter here, so any connection will do
      obtain ⟨other, hother⟩ := (Event.frame v f).exists_not_revisesLogins
      have hrevises : v.conn = other → ¬ r.revisesLogins := fun hc hrevises =>
        hother ⟨hc, by rw [hr]; exact hrevises⟩
      rcases Session.plan_discreet hplan hrevises with hds | ⟨nickname, ticketId, hname, hnone, rfl⟩
      · exact .inl (by rw [heq, Deed.Discreet.profile?_afterAll hds])
      · have hafter : (Deed.afterAll reg (Session.frameDeeds rules v reg f)).profile? c =
            if c = v.conn then some (⟨reg.lastUid + 1⟩, nickname) else reg.profile? c := by
          rw [heq]
          exact profile?_logIn hnone nickname v.conn c
        by_cases hc : c = v.conn
        · exact .inr ⟨v, f, r, nickname, rfl, hc.symm, hr, hname, hc ▸ hnone,
            hafter.trans (if_pos hc)⟩
        · exact .inl (hafter.trans (if_neg hc))
    · exact .inl (by rw [heq]; rfl)

/-- The user of a connection that had none before the turn. -/
def Moment.created? (c : ConnectionId) (m : Moment) : Option (UserId × RawText) :=
  match m.registry.profile? c with
  | some _ => none
  | none => m.after.profile? c

namespace Lobby

/-- A connection gets its account by its own request to be let in. -/
theorem Passes.created_request {rules : Rules} {l l' : Lobby} {ms : List Moment}
    (h : Passes rules l ms l') {c : ConnectionId} {m : Moment} (hm : m ∈ ms)
    (hstays : m.event ≠ .departure c) {uid : UserId} {name : RawText}
    (hcreated : m.created? c = some (uid, name)) :
    ∃ v f r, m.event = .frame v f ∧ v.conn = c ∧ Session.request? f = some r ∧
      r.nickname? = some name ∧ uid = ⟨m.registry.lastUid + 1⟩ := by
  obtain ⟨gatekeeper, hafter⟩ := h.exists_gatekeeper hm
  unfold Moment.created? at hcreated
  split at hcreated
  · cases hcreated
  rename_i hnone
  rw [hafter] at hcreated
  rcases m.event.profile?_turn (rules.under gatekeeper) m.registry hstays with
    hsame | ⟨v, f, r, nickname, he, hc, hr, hname, -, hnew⟩
  · rw [hsame, hnone] at hcreated
    cases hcreated
  · rw [hnew] at hcreated
    cases hcreated
    exact ⟨v, f, r, he, hc, hr, hname, rfl⟩

/-- **Accounts.** The account that a connection had and those that it got since are the one that it
has, if it did not depart. -/
theorem Passes.created {rules : Rules} {l l' : Lobby} {ms : List Moment}
    (h : Passes rules l ms l') {c : ConnectionId} (hstays : ∀ m ∈ ms, m.event ≠ .departure c) :
    (l.registry.profile? c).toList ++ ms.filterMap (·.created? c) =
      (l'.registry.profile? c).toList := by
  induction h with
  | refl => exact List.append_nil _
  | quiet _ hq ih =>
    rw [hq.registry_eq]
    exact ih hstays
  | @turn ms l' _ gatekeeper e ih =>
    simp only [List.forall_mem_append, List.forall_mem_singleton] at hstays
    have hbefore := ih hstays.1
    have hcreated : (l'.moment (rules.under gatekeeper) e).created? c =
        match l'.registry.profile? c with
        | some _ => none
        | none => (e.turn (rules.under gatekeeper) ⟨l'.registry, []⟩).registry.profile? c := rfl
    rw [registry_takeTurn, List.filterMap_append, ← List.append_assoc, hbefore,
      List.filterMap_cons, List.filterMap_nil, hcreated]
    have hturn := e.profile?_turn (rules.under gatekeeper) l'.registry hstays.2
    cases hprofile : l'.registry.profile? c with
    | none =>
      cases (e.turn (rules.under gatekeeper) ⟨l'.registry, []⟩).registry.profile? c <;> rfl
    | some p =>
      rcases hturn with hsame | ⟨v, f, r, nickname, -, -, -, -, hnone, -⟩
      · rw [hsame, hprofile]
        rfl
      · rw [profile?_eq_none_iff.mpr hnone] at hprofile
        exact nomatch hprofile

end Lobby

/-! ## Requests to be let in -/

/-- What a request to be let in shows: the way in, the credentials and the patch level. -/
def Request.entry? : Request → Option (Entry × Credentials × UInt32)
  | .login r => some (.login, ⟨r.nickname, r.password, r.cdkey, r.keypool⟩, r.patchlevel)
  | .newAccount r => some (.newAccount, ⟨r.nickname, r.password, r.cdkey, r.keypool⟩, r.patchlevel)
  | _ => none

namespace Session

open Deed

variable {rules : Rules} {v : Visitor} {reg : Registry} {r : Request} {entry : Entry}
  {credentials : Credentials} {patchlevel : UInt32}

theorem nickname?_of_entry (h : r.entry? = some (entry, credentials, patchlevel)) :
    r.nickname? = some credentials.nickname := by
  cases r <;> cases h <;> rfl

/-- Both requests to be let in have one plan. -/
theorem plan_of_entry (h : r.entry? = some (entry, credentials, patchlevel)) :
    plan rules v reg r = enterPlan rules v reg entry credentials patchlevel r.ticketId := by
  cases r <;> cases h <;> rfl

/-- How a request to be let in ends: the patch level is looked at first, and the gatekeeper is asked
about strangers only. -/
theorem entry_outcome (h : r.entry? = some (entry, credentials, patchlevel)) :
    (Handler.run (carryOut rules v r) ⟨reg, []⟩).1 =
      if patchlevel ≠ rules.config.patchlevel then
        .error (.wrongVersion rules.config.patchlevel patchlevel)
      else if reg.account? v.conn ≠ none then .ok ()
      else
        match rules.gatekeeper entry credentials with
        | some e => .error (.ofRefusal entry e)
        | none => .ok () := by
  rw [outcome_eq, plan_of_entry h]
  unfold enterPlan
  by_cases hlevel : patchlevel = rules.config.patchlevel
  · rw [if_neg (not_not_intro hlevel), if_neg (not_not_intro hlevel)]
    cases reg.account? v.conn with
    | some a => rfl
    | none => cases rules.gatekeeper entry credentials <;> rfl
  · rw [if_pos hlevel, if_pos hlevel]
    rfl

theorem messagesFor_letIn (rules : Rules) (hho : reg.Housed) {nickname : RawText}
    (hnone : reg.account? v.conn = none)
    (hfits : (Message.userLoggedIn ⟨reg.lastUid + 1, nickname⟩).fits) (ticketId : UInt32)
    (c : ConnectionId) :
    Offer.messagesFor c (offersAll rules reg (letIn v reg nickname ticketId)) =
      (if v.conn = c then [.resultMessage (.ok ticketId)] else []) ++
      if reg.subscribes .logins c then
        .userLoggedIn ⟨reg.lastUid + 1, nickname⟩ ::
          ((News.loggedIn ⟨reg.lastUid + 1⟩ nickname).chatLine rules.config.announceLogins).filter
            Message.fits
      else [] := by
  have hhoused : ((Call.logIn v.conn nickname v.conn).apply reg).Housed := hho.apply rfl
  have hnews : (News.loggedIn ⟨reg.lastUid + 1⟩ nickname).message.fits := hfits
  -- who has just logged in watches nothing yet
  have hsubscribes : ((Call.logIn v.conn nickname v.conn).apply reg).subscribes .logins c =
      reg.subscribes .logins c := by
    have haccount : ((Call.logIn v.conn nickname v.conn).apply reg).account? c = _ :=
      account?_logIn_of_none hnone c
    unfold subscribes
    rw [haccount]
    by_cases hc : c = v.conn
    · rw [if_pos hc, hc, hnone]
      rfl
    · rw [if_neg hc]
  have hanswer : Offer.messagesFor c [⟨v.conn, .resultMessage (.ok ticketId)⟩] =
      if v.conn = c then [.resultMessage (.ok ticketId)] else [] := Offer.messagesFor_cons ..
  show Offer.messagesFor c ([⟨v.conn, .resultMessage (.ok ticketId)⟩] ++
    ((News.loggedIn ⟨reg.lastUid + 1⟩ nickname).offers rules.config.announceLogins
      ((Call.logIn v.conn nickname v.conn).apply reg) ++ [])) = _
  rw [Offer.messagesFor_append, hanswer, List.append_nil, News.messagesFor_offers _ _ hhoused,
    List.filter_cons_of_pos hnews, News.topic, hsubscribes]
  rfl

variable {f : Frame}

/-- A frame of another patch level is refused for it whatever the gatekeeper would say. -/
theorem handle_of_wrongVersion (hrequest : request? f = some r)
    (hentry : r.entry? = some (entry, credentials, patchlevel))
    (hlevel : patchlevel ≠ rules.config.patchlevel) :
    handle rules v f ⟨reg, []⟩ = ⟨reg, [⟨v.conn, .resultMessage
      ((Rejection.wrongVersion rules.config.patchlevel patchlevel).answer r.ticketId)⟩]⟩ :=
  handle_of_plan_error hrequest ((plan_of_entry hentry).trans (if_pos hlevel))

/-- A user who asks to be let in is answered, whatever the gatekeeper would say. -/
theorem handle_of_known (hrequest : request? f = some r)
    (hentry : r.entry? = some (entry, credentials, patchlevel))
    (hlevel : patchlevel = rules.config.patchlevel) {a : Account}
    (ha : reg.account? v.conn = some a) :
    handle rules v f ⟨reg, []⟩ = ⟨reg, [⟨v.conn, .resultMessage (.ok r.ticketId)⟩]⟩ := by
  have hplan : plan rules v reg r = .ok [.ok v r.ticketId] := by
    rw [plan_of_entry hentry]
    unfold enterPlan
    rw [if_neg (not_not_intro hlevel), ha]
  rw [handle_of_plan hrequest hplan]
  rfl

/-- A stranger whom the gatekeeper does not refuse is let in. -/
theorem handle_of_stranger (hrequest : request? f = some r)
    (hentry : r.entry? = some (entry, credentials, patchlevel))
    (hlevel : patchlevel = rules.config.patchlevel) (hnone : reg.account? v.conn = none)
    (hadmitted : rules.gatekeeper entry credentials = none) :
    handle rules v f ⟨reg, []⟩ =
      ⟨(reg.logIn v.conn credentials.nickname v.conn).2,
        offersAll rules reg (letIn v reg credentials.nickname r.ticketId)⟩ := by
  have hplan : plan rules v reg r = .ok (letIn v reg credentials.nickname r.ticketId) := by
    rw [plan_of_entry hentry]
    unfold enterPlan
    rw [if_neg (not_not_intro hlevel), hnone, hadmitted]
    rfl
  exact handle_of_plan hrequest hplan

/-- Only a patch level makes the version wrong. -/
theorem code_ofRefusal_ne (entry : Entry) (e : Refusal) :
    (Rejection.ofRefusal entry e).code ≠ .wrongVersion := by
  cases e <;> cases entry <;> decide

end Session

namespace Lobby

/-- What becomes of the account of a connection in the turns from one registry to another. -/
structure Registered (c : ConnectionId) (reg : Registry) (ms : List Moment) (reg' : Registry) :
    Prop where
  /-- The account that there was and those that came are the one that there is. -/
  created_eq : (reg.profile? c).toList ++ ms.filterMap (·.created? c) = (reg'.profile? c).toList
  /-- So one comes at most, -/
  once : (ms.filterMap (·.created? c)).length ≤ 1
  /-- and none if there was one, which stays what it was. -/
  kept : ∀ p, reg.profile? c = some p →
    ms.filterMap (·.created? c) = [] ∧ reg'.profile? c = some p
  /-- It comes by a request of its own connection, with the next number. -/
  requested : ∀ m ∈ ms, ∀ uid name, m.created? c = some (uid, name) →
    ∃ v f r, m.event = .frame v f ∧ v.conn = c ∧ Session.request? f = some r ∧
      r.nickname? = some name ∧ uid = ⟨m.registry.lastUid + 1⟩

theorem Passes.registered {rules : Rules} {l l' : Lobby} {ms : List Moment}
    (h : Passes rules l ms l') {c : ConnectionId} (hstays : ∀ m ∈ ms, m.event ≠ .departure c) :
    Registered c l.registry ms l'.registry := by
  have hcreated := h.created hstays
  refine ⟨hcreated, ?_, ?_, fun m hm uid name hnew => h.created_request hm (hstays m hm) hnew⟩
  · have hone : (l'.registry.profile? c).toList.length ≤ 1 := Option.length_toList_le
    rw [← hcreated, List.length_append] at hone
    omega
  · intro p hp
    rw [hp] at hcreated
    cases hafter : l'.registry.profile? c with
    | none =>
      rw [hafter] at hcreated
      cases hcreated
    | some q =>
      rw [hafter] at hcreated
      obtain ⟨rfl, hnil⟩ := List.cons.inj hcreated
      exact ⟨hnil, rfl⟩

/-- What becomes of a request to be let in, `r`, which came in a frame `f` and shows credentials and
a patch level. -/
structure Handled (rules : Rules) (l : Lobby) (v : Visitor) (f : Frame) (r : Request)
    (entry : Entry) (credentials : Credentials) (patchlevel : UInt32) : Prop where
  /-- The patch level is looked at first, then whether there is an account, and only then the
  gatekeeper is asked. -/
  outcome_eq : (Handler.run (Session.carryOut rules v r) ⟨l.registry, []⟩).1 =
    if patchlevel ≠ rules.config.patchlevel then
      .error (.wrongVersion rules.config.patchlevel patchlevel)
    else if l.registry.account? v.conn ≠ none then .ok ()
    else
      match rules.gatekeeper entry credentials with
      | some e => .error (.ofRefusal entry e)
      | none => .ok ()
  wrongVersion_iff :
    (∃ e, (Handler.run (Session.carryOut rules v r) ⟨l.registry, []⟩).1 = .error e ∧
      e.code = .wrongVersion) ↔ patchlevel ≠ rules.config.patchlevel
  /-- A refusal has a code for the way in. -/
  code_eq : ∀ e, (Rejection.ofRefusal entry e).code =
    match e, entry with
    | .invalidCdKey, .login => .invalidKeyAtLogin
    | .invalidCdKey, .newAccount => .invalidKeyAtCreation
    | .badCredentials, _ => .authenticationFailed
    | .nameTaken, _ => .userExists
  /-- Who is refused gets the reason, and nothing else happens. -/
  refused : ∀ e, (Handler.run (Session.carryOut rules v r) ⟨l.registry, []⟩).1 = .error e →
    Session.handle rules v f ⟨l.registry, []⟩ =
      ⟨l.registry, [⟨v.conn, .resultMessage (e.answer r.ticketId)⟩]⟩
  /-- No gatekeeper has a say in the patch level, -/
  wrongVersion : ∀ gatekeeper, patchlevel ≠ rules.config.patchlevel →
    Session.handle (rules.under gatekeeper) v f ⟨l.registry, []⟩ =
      Session.handle rules v f ⟨l.registry, []⟩
  /-- nor about a user who is logged in. The user gets an answer, and nothing else happens. -/
  known : ∀ gatekeeper a, patchlevel = rules.config.patchlevel →
    l.registry.account? v.conn = some a →
    Session.handle (rules.under gatekeeper) v f ⟨l.registry, []⟩ =
      ⟨l.registry, [⟨v.conn, .resultMessage (.ok r.ticketId)⟩]⟩
  /-- Who is let in gets the next number, -/
  entered : patchlevel = rules.config.patchlevel → l.registry.account? v.conn = none →
    rules.gatekeeper entry credentials = none →
    (Session.handle rules v f ⟨l.registry, []⟩).registry =
      { l.registry with
        lastUid := l.registry.lastUid + 1
        accounts := l.registry.accounts.insert v.conn
          ⟨v.conn, ⟨l.registry.lastUid + 1⟩, credentials.nickname, .none, none, v.conn⟩ }
  /-- gets an answer, and those who watch logins are told. -/
  told : patchlevel = rules.config.patchlevel → l.registry.account? v.conn = none →
    rules.gatekeeper entry credentials = none → f.Sound .clientToServer →
    ∀ c, Offer.messagesFor c (Session.handle rules v f ⟨l.registry, []⟩).offers =
      (if v.conn = c then [.resultMessage (.ok r.ticketId)] else []) ++
      if l.registry.subscribes .logins c then
        .userLoggedIn ⟨l.registry.lastUid + 1, credentials.nickname⟩ ::
          ((News.loggedIn ⟨l.registry.lastUid + 1⟩ credentials.nickname).chatLine
            rules.config.announceLogins).filter Message.fits
      else []
  /-- What is offered to an outbox is pushed into it. -/
  lines_eq : ∀ c, (l.takeTurn (Session.handle rules v f)).lines.get? c =
    (l.lines.get? c).map
      (·.pushAll (Offer.messagesFor c (Session.handle rules v f ⟨l.registry, []⟩).offers))

/-- **Accounts.** The requests of a connection to be let in, logins and new accounts together, get
it one account at most until it departs, and as long as it has an account that has the same number
and the same name. In whatever state a lobby is, such a request is refused for its patch level
before anything else is asked. Then a connection with an account gets its answer, whatever the
gatekeeper would say, and nothing else happens. Then the gatekeeper may refuse, with a code for the
way in, and nothing happens either. Otherwise the connection gets an account with the next number
and the name that it gave, which has subscribed to nothing and joined no room, and those who watch
logins are told. -/
theorem one_account_per_session {rules : Rules} {l : Lobby} {before : List Moment}
    (h : Passes rules opened before l) :
    (∀ c ms l', Passes rules l ms l' → (∀ m ∈ ms, m.event ≠ .departure c) →
      Registered c l.registry ms l'.registry) ∧
    ∀ v f r entry credentials patchlevel, Session.request? f = some r →
      r.entry? = some (entry, credentials, patchlevel) →
      Handled rules l v f r entry credentials patchlevel := by
  refine ⟨fun c ms l' hpasses hstays => hpasses.registered hstays,
    fun v f r entry credentials patchlevel hrequest hentry => ?_⟩
  have houtcome : (Handler.run (Session.carryOut rules v r) ⟨l.registry, []⟩).1 = _ :=
    Session.entry_outcome hentry
  refine ⟨houtcome, ?_, ?_, fun e => Session.handle_of_refused hrequest,
    fun gatekeeper hlevel => ?_, fun gatekeeper a hlevel ha => ?_,
    fun hlevel hnone hadmitted => ?_, fun hlevel hnone hadmitted hread c => ?_,
    fun c => get?_lines_takeTurn ..⟩
  · rw [houtcome]
    constructor
    · rintro ⟨e, he, hcode⟩ hlevel
      rw [if_neg (not_not_intro hlevel)] at he
      split at he
      · cases he
      split at he
      · cases he
        exact Session.code_ofRefusal_ne _ _ hcode
      · cases he
    · exact fun hlevel => ⟨_, if_pos hlevel, rfl⟩
  · intro e
    cases e <;> cases entry <;> rfl
  · have hrefused : Session.handle rules v f ⟨l.registry, []⟩ = _ :=
      Session.handle_of_wrongVersion hrequest hentry hlevel
    rw [hrefused]
    exact Session.handle_of_wrongVersion hrequest hentry hlevel
  · exact Session.handle_of_known hrequest hentry hlevel ha
  · rw [Session.handle_of_stranger hrequest hentry hlevel hnone hadmitted]
    exact registry_logIn_of_none hnone
  · have hfits := Session.fits_userLoggedIn hread.length_payload_le hrequest
      (Session.nickname?_of_entry hentry) (l.registry.lastUid + 1)
    rw [Session.handle_of_stranger hrequest hentry hlevel hnone hadmitted]
    exact Session.messagesFor_letIn rules h.housed hnone hfits r.ticketId c

/-- The first user of the crowd got its account once. It logs in again under another name and gets
no more than an answer. A stranger gets an account, and the watcher is told. -/
theorem crowd_registers_once :
    let l := takeTurns .plain opened crowd
    let again := Session.handle .plain (.numbered 1)
      (sentFrame (.requestLogin ⟨[0x5A], [], [], 0, 11757, 9⟩))
    let first := Session.handle .plain (.numbered 4)
      (sentFrame (.requestCreateAccount ⟨[0x44], [], [], 0, 11757, 9⟩))
    (moments .plain opened crowd).filterMap (·.created? ⟨1⟩) = [(⟨1⟩, [0x41])] ∧
      again ⟨l.registry, []⟩ = ⟨l.registry, [⟨⟨1⟩, .resultMessage (.ok 9)⟩]⟩ ∧
      (first ⟨l.registry, []⟩).registry.accounts =
        l.registry.accounts.insert ⟨4⟩ ⟨⟨4⟩, ⟨4⟩, [0x44], .none, none, ⟨4⟩⟩ ∧
      Offer.messagesFor ⟨3⟩ (first ⟨l.registry, []⟩).offers =
        [.userLoggedIn ⟨4, [0x44]⟩,
          .chat (News.announcement [0x44] "has logged in! >>")] := by
  dsimp only
  have hpasses := passes_takeTurns .plain opened crowd
  obtain ⟨honce, -⟩ := one_account_per_session (@Passes.refl .plain opened)
  have hcreated := (honce ⟨1⟩ _ _ hpasses (by decide +kernel)).created_eq
  have hnobody : opened.registry.profile? ⟨1⟩ = none := rfl
  have hfirst : (takeTurns .plain opened crowd).registry.profile? ⟨1⟩ = some (⟨1⟩, [0x41]) := by
    decide +kernel
  rw [hnobody, hfirst] at hcreated
  obtain ⟨-, hrequests⟩ := one_account_per_session hpasses
  obtain ⟨a, ha, -⟩ := Option.map_eq_some_iff.mp hfirst
  have hagain := hrequests (.numbered 1) (sentFrame (.requestLogin ⟨[0x5A], [], [], 0, 11757, 9⟩))
    _ _ _ _ (show _ = some (.login ⟨[0x5A], [], [], 0, 11757, 9⟩) by decide +kernel) rfl
  have hfresh := hrequests (.numbered 4)
    (sentFrame (.requestCreateAccount ⟨[0x44], [], [], 0, 11757, 9⟩)) _ _ _ _
    (show _ = some (.newAccount ⟨[0x44], [], [], 0, 11757, 9⟩) by decide +kernel) rfl
  have hstranger : (takeTurns .plain opened crowd).registry.account? ⟨4⟩ = none := by
    decide +kernel
  have hlast : (takeTurns .plain opened crowd).registry.lastUid = 3 := by decide +kernel
  have hwatches : (takeTurns .plain opened crowd).registry.subscribes .logins ⟨3⟩ = true := by
    decide +kernel
  have haccounts := congrArg Registry.accounts (hfresh.entered rfl hstranger rfl)
  dsimp only at haccounts
  rw [hlast] at haccounts
  have hconn : (Visitor.numbered 4).conn ≠ ⟨3⟩ := by decide
  have hnotice := hfresh.told rfl hstranger rfl (by decide +kernel) ⟨3⟩
  rw [hwatches, if_neg hconn, if_pos rfl, hlast] at hnotice
  exact ⟨hcreated, hagain.known .admitAll a rfl ha, haccounts, hnotice.trans (by decide +kernel)⟩

end Lobby

end GameLobby
