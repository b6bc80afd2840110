import GameLobby.Proofs.Lobby.Registration

/-!
# Names

A user's name is put into other messages than the one it came in, and some of those have no room for
a long one. The notice of a login has room for every name that a login can bring
(`Session.fits_userLoggedIn`). The chat line that goes with it has room for 988 bytes
(`News.fits_loggedIn_line_iff`), and the message of the day that a lobby has by default for 904
(`Config.fits_motd_iff`); names can be longer than both. What does not fit is offered to nobody or
refused by the outbox, and nothing else is told instead. Main statement: `told_while_names_fit`.
-/

namespace GameLobby

open Registry Wire

/-! ## What a name leaves room for -/

/-- A string gets a NUL at its end if it ends in something else. -/
theorem Wire.length_terminated_append {s t : Bytes} {b : UInt8} (hlast : t.getLast? = some b)
    (hb : b ≠ 0) : (terminated (s ++ t)).length = s.length + t.length + 1 := by
  have hend : (s ++ t).getLast? ≠ some 0 := by
    rw [List.getLast?_append, hlast, Option.some_or]
    exact fun h => hb (Option.some.inj h)
  rw [terminated, if_neg hend, List.length_append, List.length_append, List.length_singleton]

theorem Message.length_payload_chat (text : RawText) (sender : UInt32) :
    (chat ⟨text, sender⟩).payload.length = 14 + (terminated text).length := by
  rw [length_payload]
  show 6 + (4 + (terminated text).length + (4 + 0)) = _
  omega

theorem Message.length_payload_motd (text : RawText) (ticketId : UInt32) :
    (motd ⟨text, ticketId⟩).payload.length = 14 + (terminated text).length := by
  rw [length_payload]
  show 6 + (4 + (terminated text).length + (4 + 0)) = _
  omega

namespace News

/-- An announcement is as long as the name and what is said of it. -/
theorem length_payload_announcement (name : RawText) {what : String} {b : UInt8}
    (hlast : (Text.utf8 what).getLast? = some b) (hb : b ≠ 0) :
    (Message.chat (announcement name what)).payload.length =
      name.length + (Text.utf8 what).length + 19 := by
  have hstart : (Text.utf8 "<< ").length = 3 := by decide
  have hblank : (Text.utf8 " ").length = 1 := by decide
  rw [announcement, Message.length_payload_chat, length_terminated_append hlast hb,
    List.length_append, List.length_append, hstart, hblank]
  omega

/-- Both announcements say the same number of bytes of a user. -/
theorem fits_announcement_iff {name : RawText} {what : String} {b : UInt8}
    (hlength : (Text.utf8 what).length = 17) (hlast : (Text.utf8 what).getLast? = some b)
    (hb : b ≠ 0) : (Message.chat (announcement name what)).fits ↔ name.length ≤ 988 := by
  unfold Message.fits
  rw [decide_eq_true_iff, length_payload_announcement name hlast hb, hlength]
  show _ ≤ 1024 ↔ _
  omega

theorem fits_loggedIn_line_iff {name : RawText} :
    (Message.chat (announcement name "has logged in! >>")).fits ↔ name.length ≤ 988 :=
  fits_announcement_iff (by decide) (show _ = some 0x3E by decide) (by decide)

theorem fits_loggedOut_line_iff {name : RawText} :
    (Message.chat (announcement name "has logged out >>")).fits ↔ name.length ≤ 988 :=
  fits_announcement_iff (by decide) (show _ = some 0x3E by decide) (by decide)

end News

namespace Config

/-- The default message of the day names the user once. -/
theorem motdText_default (name : RawText) :
    ∃ before after : Bytes, default.motdText name = before ++ name ++ after ∧
      before.length = 72 ∧ after.length = 33 ∧ after.getLast? = some 0x61 := by
  have hlengths : (Template.parts (Text.utf8 defaultMotd)).map List.length = [72, 33] := by
    decide +kernel
  have hlast : (Template.parts (Text.utf8 defaultMotd)).getLast?.bind List.getLast? =
      some 0x61 := by
    decide +kernel
  unfold motdText Template.fill
  show ∃ before after, name.intercalate (Template.parts (Text.utf8 defaultMotd)) = _ ∧ _
  generalize Template.parts (Text.utf8 defaultMotd) = parts at hlengths hlast
  obtain ⟨before, rest, rfl, hbefore, hrest⟩ := List.map_eq_cons_iff.mp hlengths
  obtain ⟨after, rest, rfl, hafter, hrest⟩ := List.map_eq_cons_iff.mp hrest
  obtain rfl := List.map_eq_nil_iff.mp hrest
  refine ⟨before, after, ?_, hbefore, hafter, hlast⟩
  simp [List.intercalate, List.intersperse]

theorem fits_motd_iff {name : RawText} {ticketId : UInt32} :
    (Message.motd ⟨default.motdText name, ticketId⟩).fits ↔ name.length ≤ 904 := by
  obtain ⟨before, after, htext, hbefore, hafter, hlast⟩ := motdText_default name
  unfold Message.fits
  rw [decide_eq_true_iff, Message.length_payload_motd, htext,
    length_terminated_append hlast (by decide), List.length_append, hbefore, hafter]
  show _ ≤ 1024 ↔ _
  omega

end Config

/-! ## Who is told -/

/-- What those who watch logins are told when a user departs from a lobby that announces it. -/
theorem Account.farewell_announced (a : Account) :
    a.farewell true = .userLoggedOut ⟨a.uid.number⟩ ::
      if a.name.length ≤ 988 then [.chat (News.announcement a.name "has logged out >>")]
      else [] := by
  simp only [farewell, News.fits_loggedOut_line_iff, true_and]

/-- The chat line of a login, if it fits a frame. -/
theorem News.filter_chatLine_loggedIn (uid : UserId) (name : RawText) :
    ((loggedIn uid name).chatLine true).filter Message.fits =
      if name.length ≤ 988 then [.chat (announcement name "has logged in! >>")] else [] := by
  show [Message.chat (announcement name "has logged in! >>")].filter Message.fits = _
  by_cases hname : name.length ≤ 988
  · rw [if_pos hname, List.filter_cons_of_pos (fits_loggedIn_line_iff.mpr hname), List.filter_nil]
  · rw [if_neg hname, List.filter_cons_of_neg (mt fits_loggedIn_line_iff.mp hname), List.filter_nil]

theorem Logout.ne_chat_of_mem_roomNews {d : Logout} {m : Message} (hm : m ∈ d.roomNews)
    (line : Chat) : m ≠ .chat line := by
  rintro rfl
  rcases List.mem_append.mp hm with hm | hm
  · obtain ⟨room, -, heq⟩ := Option.map_eq_some_iff.mp (Option.mem_toList.mp hm)
    cases heq
  · obtain ⟨room, -, heq⟩ := Option.map_eq_some_iff.mp (Option.mem_toList.mp hm)
    cases heq

namespace Session

/-- What a client sends is taken for what its message reads as. -/
theorem request?_sentFrame {m : Message} (h : m.fits) :
    request? (Lobby.sentFrame m) = m.trimmed.request? := by
  have hkind : (Lobby.sentFrame m).header.kind? = some .applicationMessage := rfl
  have hpayload : (Lobby.sentFrame m).payload = m.payload := rfl
  rw [request?, if_pos hkind, hpayload, Received.ofPayload_payload m (Message.short_of_fits h)]

section Turns

variable {rules : Rules} {v : Visitor} {f : Frame} {reg : Registry}

/-- A user who asks for the message of the day is offered it, and nothing else is done, whether it
fits a frame or not. -/
theorem handle_motd {q : RequestMotd} {a : Account} (hrequest : request? f = some (.motd q))
    (ha : reg.account? v.conn = some a) :
    handle rules v f ⟨reg, []⟩ =
      ⟨reg, [⟨v.conn, .motd ⟨rules.config.motdText a.name, q.ticketId⟩⟩]⟩ := by
  have hplan : plan rules v reg (.motd q) =
      .ok [.send v.conn (.motd ⟨rules.config.motdText a.name, q.ticketId⟩)] := by
    simp only [plan, ha]
  exact handle_of_plan hrequest hplan

variable {r : Request} {entry : Entry} {credentials : Credentials}
  (hconfig : rules.config = .default) (hrequest : request? f = some r)
  (hentry : r.entry? = some (entry, credentials, Config.default.patchlevel))
  (hnone : reg.account? v.conn = none) (hadmitted : rules.gatekeeper entry credentials = none)

include hconfig hrequest hentry hnone hadmitted

/-- A stranger gets an account with the name that it gave. -/
theorem profile?_handle_stranger :
    (handle rules v f ⟨reg, []⟩).registry.profile? v.conn =
      some (⟨reg.lastUid + 1⟩, credentials.nickname) := by
  have hlevel : Config.default.patchlevel = rules.config.patchlevel := hconfig ▸ rfl
  rw [handle_of_stranger hrequest hentry hlevel hnone hadmitted]
  exact (profile?_logIn hnone credentials.nickname v.conn v.conn).trans (if_pos rfl)

/-- Those who watch logins are told that a stranger was let in, with a chat line if it fits. -/
theorem messagesFor_handle_stranger (hho : reg.Housed)
    (hsize : f.payload.length ≤ FrameHeader.maxPayload) (c : ConnectionId) :
    Offer.messagesFor c (handle rules v f ⟨reg, []⟩).offers =
      (if v.conn = c then [.resultMessage (.ok r.ticketId)] else []) ++
        if reg.subscribes .logins c then
          .userLoggedIn ⟨reg.lastUid + 1, credentials.nickname⟩ ::
            if credentials.nickname.length ≤ 988 then
              [.chat (News.announcement credentials.nickname "has logged in! >>")]
            else []
        else [] := by
  have hlevel : Config.default.patchlevel = rules.config.patchlevel := hconfig ▸ rfl
  have hannounce : rules.config.announceLogins = true := hconfig ▸ rfl
  have hfits := fits_userLoggedIn hsize hrequest (nickname?_of_entry hentry) (reg.lastUid + 1)
  rw [handle_of_stranger hrequest hentry hlevel hnone hadmitted]
  refine (messagesFor_letIn rules hho hnone hfits r.ticketId c).trans ?_
  rw [hannounce, News.filter_chatLine_loggedIn]

end Turns

end Session

namespace Lobby

/-- A turn in which nothing is offered that fits a frame leaves all lines as they are. -/
theorem get?_lines_of_not_fits {l : Lobby} {turn : Turn → Turn}
    (h : ∀ o ∈ (turn ⟨l.registry, []⟩).offers, ¬ o.message.fits) (c : ConnectionId) :
    (l.takeTurn turn).lines.get? c = l.lines.get? c := by
  have hpush : ∀ line : Line,
      line.pushAll (Offer.messagesFor c (turn ⟨l.registry, []⟩).offers) = line := by
    intro line
    unfold Line.pushAll
    rw [Outbox.pushAll_of_not_fits fun m hm => h ⟨c, m⟩ (Offer.mem_messagesFor.mp hm)]
  rw [get?_lines_takeTurn]
  simp only [hpush, Option.map_id_fun', id_eq]

/-- A user with a long name who asks for the message of the day gets nothing. -/
theorem get?_lines_motd {rules : Rules} {l : Lobby} {v : Visitor} {f : Frame} {q : RequestMotd}
    {a : Account} (hconfig : rules.config = .default)
    (hrequest : Session.request? f = some (.motd q)) (ha : l.registry.account? v.conn = some a)
    (hlong : 904 < a.name.length) (c : ConnectionId) :
    (l.takeTurn (Session.handle rules v f)).lines.get? c = l.lines.get? c := by
  refine get?_lines_of_not_fits (fun o ho => ?_) c
  rw [Session.handle_motd hrequest ha, hconfig] at ho
  obtain rfl := List.mem_singleton.mp ho
  exact fun hfits => Nat.not_le.mpr hlong (Config.fits_motd_iff.mp hfits)

/-- A queue with room for what is offered to it in a turn gets what fits a frame. -/
theorem queue_takeTurn {l : Lobby} {turn : Turn → Turn} {c : ConnectionId} {line : Line}
    (hline : l.lines.get? c = some line)
    (hroom : line.outbox.HasRoom (Offer.messagesFor c (turn ⟨l.registry, []⟩).offers)) :
    ((l.takeTurn turn).lines.get? c).map (·.outbox.queue) =
      some (line.outbox.queue ++
        ((Offer.messagesFor c (turn ⟨l.registry, []⟩).offers).filter Message.fits).map
          (·.frame)) := by
  rw [get?_lines_takeTurn, hline, Option.map_some, Option.map_some, ← hroom.queue_pushAll]
  rfl

/-- **Names.** In whatever state a lobby with the default settings is:

* a stranger who is let in has the name that it gave, however long, and those who watch logins are
  offered the notice, and the chat line if the name has at most 988 bytes;
* a user who asks for the message of the day is offered it with the ticket of the request; it fits
  a frame if the name has at most 904 bytes, and otherwise no queue gets anything and the request
  stays without an answer;
* when a user departs, those who watch logins are offered the notice, and the chat line if the name
  has at most 988 bytes;
* a queue with room for what is offered gets all of it that fits a frame. -/
theorem told_while_names_fit {rules : Rules} {l : Lobby} {ms : List Moment}
    (h : Passes rules opened ms l) (hconfig : rules.config = .default) :
    (∀ v f r entry credentials, Session.request? f = some r →
      r.entry? = some (entry, credentials, Config.default.patchlevel) →
      f.payload.length ≤ 1024 → l.registry.account? v.conn = none →
      rules.gatekeeper entry credentials = none →
      let name := credentials.nickname
      let turn := Session.handle rules v f
      (l.takeTurn turn).registry.profile? v.conn = some (⟨l.registry.lastUid + 1⟩, name) ∧
      ∀ c, Offer.messagesFor c (turn ⟨l.registry, []⟩).offers =
        (if v.conn = c then [.resultMessage (.ok r.ticketId)] else []) ++
          if l.registry.subscribes .logins c then
            .userLoggedIn ⟨l.registry.lastUid + 1, name⟩ ::
              if name.length ≤ 988 then [.chat (News.announcement name "has logged in! >>")]
              else []
          else []) ∧
    (∀ v f q a, Session.request? f = some (.motd q) → l.registry.account? v.conn = some a →
      let reply := Message.motd ⟨Config.default.motdText a.name, q.ticketId⟩
      let turn := Session.handle rules v f
      turn ⟨l.registry, []⟩ = ⟨l.registry, [⟨v.conn, reply⟩]⟩ ∧
      (reply.payload.length ≤ 1024 ↔ a.name.length ≤ 904) ∧
      (904 < a.name.length → ∀ c, (l.takeTurn turn).lines.get? c = l.lines.get? c)) ∧
    (∀ conn a, l.registry.account? conn = some a →
      let turn := Session.depart rules conn
      ∃ rooms : ConnectionId → List Message, ∀ c, (∀ m ∈ rooms c, ∀ line, m ≠ .chat line) ∧
        Offer.messagesFor c (turn ⟨l.registry, []⟩).offers = rooms c ++
          if (l.takeTurn turn).registry.subscribes .logins c then
            .userLoggedOut ⟨a.uid.number⟩ ::
              if a.name.length ≤ 988 then [.chat (News.announcement a.name "has logged out >>")]
              else []
          else []) ∧
    ∀ (turn : Turn → Turn) c line, l.lines.get? c = some line →
      let heard := Offer.messagesFor c (turn ⟨l.registry, []⟩).offers
      line.outbox.HasRoom heard →
      ((l.takeTurn turn).lines.get? c).map (·.outbox.queue) =
        some (line.outbox.queue ++ (heard.filter Message.fits).map (·.frame)) := by
  refine ⟨fun v f r entry credentials hrequest hentry hsize hnone hadmitted => ?_,
    fun v f q a hrequest ha => ?_, fun conn a ha => ?_, fun turn c line => queue_takeTurn⟩
  · intro name turn
    refine ⟨?_, fun c => ?_⟩
    · rw [registry_takeTurn]
      exact Session.profile?_handle_stranger hconfig hrequest hentry hnone hadmitted
    · exact Session.messagesFor_handle_stranger hconfig hrequest hentry hnone hadmitted
        h.housed hsize c
  · intro reply turn
    have hturn : turn ⟨l.registry, []⟩ = _ := Session.handle_motd hrequest ha
    rw [hconfig] at hturn
    have hfits : reply.fits ↔ a.name.length ≤ 904 := Config.fits_motd_iff
    exact ⟨hturn, decide_eq_true_iff.symm.trans hfits, get?_lines_motd hconfig hrequest ha⟩
  · intro turn
    have hannounce : rules.config.announceLogins = true := hconfig ▸ rfl
    obtain ⟨d, -, -, htold⟩ := Session.messagesFor_depart_user rules h.housed ha
    refine ⟨fun c => if (l.registry.logOut conn).2.subscribes .rooms c then
      d.roomNews.filter Message.fits else [], fun c => ⟨fun m hm => ?_, ?_⟩⟩
    · dsimp only at hm
      split at hm
      · exact Logout.ne_chat_of_mem_roomNews (List.mem_filter.mp hm).1
      · cases hm
    · rw [registry_takeTurn, Session.registry_depart, htold, hannounce, Account.farewell_announced]

/-- A user logs in and watches logins. -/
def loginsWatched : List Event :=
  [.sent 1 (.requestLogin ⟨[0x41], [], [], 0, 11757, 1⟩), .sent 1 (.regObserverUserLogin ⟨true, 2⟩)]

/-- The login of a second user. -/
def loginFrame (name : RawText) : Frame :=
  sentFrame (.requestLogin ⟨name, [], [], 0, 11757, 1⟩)

/-- A login has room for a name of 994 bytes, with a NUL. -/
theorem payload_loginFrame {n : Nat} (h : n ≤ 994) :
    (loginFrame (List.replicate n 0x42)).payload.length ≤ 1024 := by
  have hend := length_terminated_le (List.replicate n 0x42)
  show (Message.requestLogin _).payload.length ≤ _
  rw [List.length_replicate] at hend
  rw [Message.length_payload]
  show 6 + (4 + (terminated (List.replicate n 0x42)).length +
    ((4 + 1) + ((4 + 0) + (2 + (4 + (4 + 0)))))) ≤ 1024
  omega

theorem request?_loginFrame {n : Nat} (h : n ≤ 994) :
    Session.request? (loginFrame (List.replicate n 0x42)) =
      some (.login ⟨List.replicate n 0x42, [], [], 0, 11757, 1⟩) := by
  have hend : (List.replicate n (0x42 : UInt8)).getLast? ≠ some 0 := by
    intro hlast
    obtain ⟨-, hzero⟩ := List.mem_replicate.mp (List.mem_of_getLast? hlast)
    cases hzero
  have hname := unterminated_eq_self_iff.mpr hend
  refine (Session.request?_sentFrame (decide_eq_true (payload_loginFrame h))).trans ?_
  show some (Request.login ⟨unterminated (List.replicate n 0x42), [], [], 0, 11757, 1⟩) = _
  rw [hname]

/-- A name of 988 bytes is short enough for the chat line, and too long for the message of the
day. -/
theorem told_while_names_fit_partly :
    let name : RawText := List.replicate 988 0x42
    let l := takeTurns .plain gathered loginsWatched
    let enter := Session.handle .plain (.numbered 2) (loginFrame name)
    let ask := Session.handle .plain (.numbered 2) (sentFrame (.requestMotd ⟨77⟩))
    Offer.messagesFor ⟨1⟩ (enter ⟨l.registry, []⟩).offers =
        [.userLoggedIn ⟨2, name⟩, .chat (News.announcement name "has logged in! >>")] ∧
      ∀ c, ((l.takeTurn enter).takeTurn ask).lines.get? c = (l.takeTurn enter).lines.get? c := by
  intro name l enter ask
  have hpasses := passes_gathered loginsWatched
  have hstranger : l.registry.account? ⟨2⟩ = none := by decide +kernel
  have hlast : l.registry.lastUid = 1 := by decide +kernel
  have hwatches : l.registry.subscribes .logins ⟨1⟩ = true := by decide +kernel
  have hnext : (1 : UInt32) + 1 = 2 := rfl
  obtain ⟨hlogin, -⟩ := told_while_names_fit hpasses rfl
  obtain ⟨hprofile, hheard⟩ := hlogin (.numbered 2) (loginFrame name) _ _ _
    (request?_loginFrame (by decide)) rfl (payload_loginFrame (by decide)) hstranger rfl
  obtain ⟨a, ha, hname⟩ := Option.map_eq_some_iff.mp hprofile
  have hlength : a.name.length = 988 := by
    rw [(Prod.mk.inj hname).2]
    exact List.length_replicate ..
  obtain ⟨-, hmotd, -⟩ :=
    told_while_names_fit (hpasses.ruled (.frame (.numbered 2) (loginFrame name))) rfl
  obtain ⟨-, -, hsilent⟩ := hmotd (.numbered 2) (sentFrame (.requestMotd ⟨77⟩)) ⟨77⟩ a
    (by decide +kernel) ha
  refine ⟨?_, hsilent (by omega)⟩
  have hother : (Visitor.numbered 2).conn ≠ ⟨1⟩ := by decide
  have hshort : name.length ≤ 988 := Nat.le_of_eq (List.length_replicate ..)
  have htold := hheard ⟨1⟩
  dsimp only at htold
  rw [if_neg hother, hwatches, if_pos rfl, hlast, hnext, if_pos hshort, List.nil_append] at htold
  exact htold

/-- A name of 989 bytes comes in a frame and the user is let in. The message of the day that the
user asks for reaches no queue. The one who watches logins gets the notice and no chat line,
although there is room for both. -/
theorem long_name_unheard :
    let name : RawText := List.replicate 989 0x42
    let l := takeTurns .plain gathered loginsWatched
    let l' := l.takeTurn (Session.handle .plain (.numbered 2) (loginFrame name))
    let ask := sentFrame (.requestMotd ⟨77⟩)
    (loginFrame name).payload.length ≤ 1024 ∧ l'.registry.profile? ⟨2⟩ = some (⟨2⟩, name) ∧
      Session.request? ask = some (.motd ⟨77⟩) ∧ (l.lines.get? ⟨2⟩).isSome ∧
      (∀ c, (l'.takeTurn (Session.handle .plain (.numbered 2) ask)).lines.get? c =
        l'.lines.get? c) ∧
      l.registry.subscribes .logins ⟨1⟩ ∧
      ∃ line, l.lines.get? ⟨1⟩ = some line ∧ line.outbox.closed = false ∧
        line.outbox.queue.length + 2 ≤ line.outbox.capacity ∧
        (l'.lines.get? ⟨1⟩).map (·.outbox.queue) =
          some (line.outbox.queue ++ [(Message.userLoggedIn ⟨2, name⟩).frame]) := by
  intro name l l' ask
  have hsize : (loginFrame name).payload.length ≤ 1024 := payload_loginFrame (by decide)
  have hrequest := request?_loginFrame (show 989 ≤ 994 by decide)
  have hstranger : l.registry.account? ⟨2⟩ = none := by decide +kernel
  have hlast : l.registry.lastUid = 1 := by decide +kernel
  have hwatches : l.registry.subscribes .logins ⟨1⟩ = true := by decide +kernel
  have hask : Session.request? ask = some (.motd ⟨77⟩) := by decide +kernel
  have hroom : (l.lines.get? ⟨1⟩).any fun line => line.outbox.closed = false ∧
      line.outbox.queue.length + 2 ≤ line.outbox.capacity := by decide +kernel
  obtain ⟨line, hline, htakes⟩ := (Option.any_eq_true ..).mp hroom
  obtain ⟨hopen, hroom⟩ := of_decide_eq_true htakes
  have hlong : name.length = 989 := List.length_replicate ..
  -- who the user is after the login, and what the first user was told of it
  have hprofile : l'.registry.profile? ⟨2⟩ = some (⟨2⟩, name) := by
    have hlogin := @Session.profile?_handle_stranger .plain (.numbered 2) _ _ _ _ _ rfl hrequest
      rfl hstranger rfl
    rw [hlast] at hlogin
    exact (congrArg (Registry.profile? · ⟨2⟩) (registry_takeTurn ..)).trans hlogin
  have hheard : Offer.messagesFor ⟨1⟩
      (Session.handle .plain (.numbered 2) (loginFrame name) ⟨l.registry, []⟩).offers =
        [.userLoggedIn ⟨2, name⟩] := by
    have hlogin := @Session.messagesFor_handle_stranger .plain (.numbered 2) _ _ _ _ _ rfl hrequest
      rfl hstranger rfl (passes_gathered loginsWatched).housed hsize ⟨1⟩
    have hother : (Visitor.numbered 2).conn ≠ ⟨1⟩ := by decide
    have hnot : ¬ name.length ≤ 988 := by omega
    rw [if_neg hother, hwatches, if_pos rfl, hlast, if_neg hnot, List.nil_append] at hlogin
    exact hlogin
  obtain ⟨a, ha, hname⟩ := Option.map_eq_some_iff.mp hprofile
  have hlength : 904 < a.name.length := by
    rw [(Prod.mk.inj hname).2]
    omega
  have hfits : (Message.userLoggedIn ⟨2, name⟩).fits :=
    Session.fits_userLoggedIn hsize hrequest rfl 2
  have hgets : line.outbox.HasRoom [.userLoggedIn ⟨2, name⟩] := by
    refine ⟨hopen, ?_⟩
    rw [List.filter_cons_of_pos hfits]
    show line.outbox.queue.length + 1 ≤ _
    omega
  rw [← hheard] at hgets
  refine ⟨hsize, hprofile, hask, by decide +kernel, get?_lines_motd rfl hask ha hlength, hwatches,
    line, hline, hopen, hroom, ?_⟩
  rw [queue_takeTurn hline hgets, hheard, List.filter_cons_of_pos hfits]
  rfl

end Lobby

end GameLobby
