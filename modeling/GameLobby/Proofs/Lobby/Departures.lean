import GameLobby.Proofs.Lobby.Advertising
import GameLobby.Proofs.Lobby.Reach
import GameLobby.Proofs.Lobby.Recipients
import GameLobby.Proofs.Registry.Departure

/-!
# Departures

When a session has ended, its account goes with all that hangs on it, and those who watch rooms or
logins are told (`Session.messagesFor_depart`). Main statement: `departure_leaves_nothing`.
-/

namespace GameLobby

open Registry

/-- What those who watch rooms are told when a connection departs: its room is gone, and the room it
visited goes on without it. -/
def Registry.roomFarewell (reg : Registry) (conn : ConnectionId) : List Message :=
  ((reg.roomOf? conn).map fun room =>
    Message.removeServer ⟨room.id.number, room.running, 0⟩).toList ++
  ((reg.visited? conn).map fun room =>
    Message.gameServerData ((room.without conn).snapshot 0)).toList

/-- What a logout tells of rooms: the room that went, and the room that was left. -/
def Logout.roomNews (d : Logout) : List Message :=
  (d.ownedRoom.map fun room => Message.removeServer ⟨room.id.number, room.running, 0⟩).toList ++
    (d.leftRoom.map fun room => Message.gameServerData (room.snapshot 0)).toList

/-- What those who watch logins are told when a user departs. The chat line is left out if logouts
are not announced or if it does not fit a frame. -/
def Account.farewell (announce : Bool) (a : Account) : List Message :=
  let line := Message.chat (News.announcement a.name "has logged out >>")
  .userLoggedOut ⟨a.uid.number⟩ :: if announce ∧ line.fits then [line] else []

namespace Session

variable {reg : Registry} {conn : ConnectionId}

/-- Without an account nothing happens. -/
theorem depart_of_none (rules : Rules) (hnone : reg.account? conn = none) (offers : List Offer) :
    depart rules conn ⟨reg, offers⟩ = ⟨reg, offers⟩ := by
  unfold depart
  rcases logOut_cases reg conn with ⟨-, heq⟩ | ⟨a, ha, -⟩
  · rw [heq]
  · rw [hnone] at ha
    exact nomatch ha

theorem registry_depart (rules : Rules) (conn : ConnectionId) (t : Turn) :
    (depart rules conn t).registry = (t.registry.logOut conn).2 := by
  unfold depart
  rcases hout : t.registry.logOut conn with ⟨_ | d, reg'⟩
  · rcases logOut_cases t.registry conn with ⟨-, heq⟩ | ⟨a, -, heq, -⟩
    · rw [hout] at heq
      exact (congrArg Prod.snd heq).symm
    · rw [hout] at heq
      exact nomatch heq
  · rfl

/-- What is told of a logout, whatever became of rooms. Of the news about rooms only that is told
which fits a frame. -/
theorem messagesFor_farewell (announce : Bool) (hho : reg.Housed) (d : Logout)
    (c : ConnectionId) :
    Offer.messagesFor c ((farewell d).flatMap (·.offers announce reg)) =
      (if reg.subscribes .rooms c then d.roomNews.filter Message.fits else []) ++
        if reg.subscribes .logins c then d.account.farewell announce else [] := by
  rw [Offer.messagesFor_flatMap]
  simp only [News.messagesFor_offers _ _ hho, farewell, List.flatMap_append]
  congr 1
  · rw [Logout.roomNews, List.filter_append]
    cases hrooms : reg.subscribes .rooms c <;> cases d.ownedRoom <;> cases d.leftRoom <;>
      simp [News.topic, News.message, News.chatLine, hrooms]
  · unfold Account.farewell
    cases hlogins : reg.subscribes .logins c <;> cases announce <;>
      simp [News.topic, News.message, News.chatLine, Message.fits_userLoggedOut, List.filter_cons,
        hlogins]

/-- The departure of a user, whatever became of rooms. -/
theorem messagesFor_depart_user (rules : Rules) (hho : reg.Housed) {a : Account}
    (ha : reg.account? conn = some a) :
    ∃ d : Logout, (reg.logOut conn).1 = some d ∧ d.account = a ∧ ∀ c,
      Offer.messagesFor c (depart rules conn ⟨reg, []⟩).offers =
        (if (reg.logOut conn).2.subscribes .rooms c then d.roomNews.filter Message.fits else []) ++
          if (reg.logOut conn).2.subscribes .logins c then
            a.farewell rules.config.announceLogins
          else [] := by
  have hho' : (reg.logOut conn).2.Housed := @Housed.apply reg hho (.logOut conn) trivial
  rcases logOut_cases reg conn with ⟨hnone, -⟩ | ⟨b, hb, hout, -⟩
  · exact nomatch ha.symm.trans hnone
  · obtain rfl : a = b := Option.some.inj (ha.symm.trans hb)
    refine ⟨_, hout, rfl, fun c => ?_⟩
    rw [← messagesFor_farewell _ hho', depart]
    rw [show reg.logOut conn = (_, (reg.logOut conn).2) from Prod.ext hout rfl]
    rfl

/-- **News of a departure.** Those who watch rooms are told what becomes of rooms, then those who
watch logins that the user is gone. -/
theorem messagesFor_depart (rules : Rules) (hco : reg.Coherent) (hho : reg.Housed)
    (hfit : reg.AllFit) {a : Account} (ha : reg.account? conn = some a) (d : ConnectionId) :
    Offer.messagesFor d (depart rules conn ⟨reg, []⟩).offers =
      (if (reg.logOut conn).2.subscribes .rooms d then reg.roomFarewell conn else []) ++
        if (reg.logOut conn).2.subscribes .logins d then
          a.farewell rules.config.announceLogins
        else [] := by
  obtain ⟨logout, hlogout, -, htold⟩ := messagesFor_depart_user rules hho ha
  rw [hco.logOut_fst conn ha] at hlogout
  obtain rfl := Option.some.inj hlogout
  -- no notice about a room is too large
  have hrooms : ∀ m ∈ reg.roomFarewell conn, m.fits := by
    intro m hm
    rcases List.mem_append.mp hm with hm | hm
    · obtain ⟨room, -, rfl⟩ := Option.map_eq_some_iff.mp (Option.mem_toList.mp hm)
      exact Message.fits_removeServer _
    · obtain ⟨room, hroom, rfl⟩ := Option.map_eq_some_iff.mp (Option.mem_toList.mp hm)
      obtain ⟨o, -, hr, -⟩ := (hco.visited?_eq_some_iff conn).mp hroom
      have hsettings : (room.without conn).settings.Fits := hfit o room hr
      exact ((room.without conn).fits_snapshot_iff 0).mpr hsettings
  have hnews : Logout.roomNews ⟨a, reg.roomOf? conn, (reg.visited? conn).map (·.without conn)⟩ =
      reg.roomFarewell conn := by
    unfold Logout.roomNews roomFarewell
    rw [Option.map_map]
    rfl
  rw [htold, hnews, List.filter_eq_self.mpr hrooms]

end Session

namespace Lobby

/-- A turn in which nothing happens. -/
theorem takeTurn_of_eq {l : Lobby} {turn : Turn → Turn}
    (hturn : turn ⟨l.registry, []⟩ = ⟨l.registry, []⟩) : l.takeTurn turn = l := by
  unfold takeTurn
  rw [hturn]
  rfl

/-- **Departures.** In whatever state a lobby is, the departure of a connection leaves nothing of it
in the registry and all else as it was. Of those who remain, the ones who watch rooms are offered
the notice that its room is gone, if it owned one, and then the room it visited without it, if there
is one; those who watch logins are offered the notice that the user is gone and the chat line.
Nobody else is offered anything. A connection without an account departs without effect, so
departing twice is departing once. -/
theorem departure_leaves_nothing {rules : Rules} {l : Lobby} {ms : List Moment}
    (h : Passes rules opened ms l) (hn : ∀ m ∈ ms, m.registry.NumbersLeft)
    (conn : ConnectionId) :
    let reg := l.registry
    let offers := (Session.depart rules conn ⟨reg, []⟩).offers
    let l' := l.takeTurn (Session.depart rules conn)
    Purged conn reg l'.registry ∧
    (∀ room, reg.visited? conn = some room ↔
      ∃ o, o ≠ conn ∧ reg.roomOf? o = some room ∧ conn ∈ room.players) ∧
    (∀ a, reg.account? conn = some a → ∀ d,
      Offer.messagesFor d offers =
        (if l'.registry.subscribes .rooms d then reg.roomFarewell conn else []) ++
          if l'.registry.subscribes .logins d then
            a.farewell rules.config.announceLogins
          else []) ∧
    Offer.messagesFor conn offers = [] ∧
    (∀ d, l'.lines.get? d =
      (l.lines.get? d).map (·.pushAll (Offer.messagesFor d offers))) ∧
    (reg.account? conn = none → offers = [] ∧ l' = l) ∧
    l'.takeTurn (Session.depart rules conn) = l' := by
  intro reg offers l'
  have hco : reg.Coherent := h.coherent hn
  have hreg : l'.registry = (reg.logOut conn).2 :=
    (registry_takeTurn ..).trans (Session.registry_depart ..)
  have hpurged : Purged conn reg l'.registry := hreg ▸ hco.purged conn
  have htold : ∀ a, reg.account? conn = some a → ∀ d, Offer.messagesFor d offers = _ :=
    fun a ha d => Session.messagesFor_depart rules hco h.housed h.allFit ha d
  have hnone : reg.account? conn = none → offers = [] ∧ l' = l := by
    intro hnone
    have hturn := Session.depart_of_none rules hnone []
    exact ⟨congrArg Turn.offers hturn, takeTurn_of_eq hturn⟩
  refine ⟨hpurged, fun room => hco.visited?_eq_some_iff conn, ?_, ?_, fun d => ?_, hnone, ?_⟩
  · rw [hreg]
    exact htold
  · cases ha : reg.account? conn with
    | none =>
      rw [(hnone ha).1]
      rfl
    | some a =>
      have hgone : ∀ t, (reg.logOut conn).2.subscribes t conn = false := fun t => by
        rw [Registry.subscribes, ← hreg, hpurged.no_account]
        rfl
      rw [htold a ha, hgone, hgone]
      rfl
  · exact get?_lines_takeTurn ..
  · exact takeTurn_of_eq (Session.depart_of_none rules hpurged.no_account [])

/-- Three users log in, and the third watches. The others offer a room each, and the first visits
the second. -/
def crowd : List Event :=
  [.sent 1 (.requestLogin ⟨[0x41], [], [], 0, 11757, 1⟩),
    .sent 2 (.requestLogin ⟨[0x42], [], [], 0, 11757, 1⟩),
    .sent 3 (.requestLogin ⟨[0x43], [], [], 0, 11757, 1⟩),
    .sent 3 (.regObserverUserLogin ⟨true, 2⟩),
    .sent 3 (.regObserverServerList ⟨true, 0, 0, 0, 3⟩),
    .sent 1 (.addGameServer ⟨[0x52], [], 5479, 0, 0, [], 4, 0, 0, 0, false, [], false, [], 2⟩),
    .sent 2 (.addGameServer ⟨[0x53], [], 5479, 0, 0, [], 4, 0, 0, 0, false, [], false, [], 2⟩),
    .sent 1 (.joinServer ⟨0, 2, 3⟩)]

/-- The first user departs: the third is told of both rooms and of the user, the second
of nothing. -/
theorem visiting_owner_departs :
    let reg := (takeTurns .plain opened crowd).registry
    let t := Session.depart .plain ⟨1⟩ ⟨reg, []⟩
    (∀ m ∈ moments .plain opened crowd, m.registry.NumbersLeft) ∧
      Purged ⟨1⟩ reg ((takeTurns .plain opened crowd).takeTurn
        (Session.depart .plain ⟨1⟩)).registry ∧
      ∃ visited : Room, reg.visited? ⟨1⟩ = some visited ∧ visited.players = [⟨2⟩, ⟨1⟩] ∧
        Offer.messagesFor ⟨3⟩ t.offers =
          [.removeServer ⟨1, false, 0⟩, .gameServerData ((visited.without ⟨1⟩).snapshot 0),
            .userLoggedOut ⟨1⟩, .chat (News.announcement [0x41] "has logged out >>")] ∧
        Offer.messagesFor ⟨2⟩ t.offers = [] := by
  intro reg t
  have hn : ∀ m ∈ moments .plain opened crowd, m.registry.NumbersLeft := by decide +kernel
  obtain ⟨hpurged, -, htold, -⟩ :=
    departure_leaves_nothing (passes_takeTurns .plain opened crowd) hn ⟨1⟩
  have hvisited : (reg.visited? ⟨1⟩).map (·.players) = some [⟨2⟩, ⟨1⟩] := by decide +kernel
  obtain ⟨visited, hvisited, hplayers⟩ := Option.map_eq_some_iff.mp hvisited
  have howned : (reg.roomOf? ⟨1⟩).map (fun r => (r.id.number, r.running)) = some (1, false) := by
    decide +kernel
  obtain ⟨owned, howned, hroom⟩ := Option.map_eq_some_iff.mp howned
  obtain ⟨hid, hrunning⟩ := Prod.mk.inj hroom
  let a : Account := ⟨⟨1⟩, ⟨1⟩, [0x41], .none, some ⟨2⟩, ⟨1⟩⟩
  have ha : reg.account? ⟨1⟩ = some a := by decide +kernel
  let l' := (takeTurns .plain opened crowd).takeTurn (Session.depart .plain ⟨1⟩)
  have hthird : ∀ t, t ≠ .chat → l'.registry.subscribes t ⟨3⟩ = true := by
    intro t
    cases t <;> decide +kernel
  have hsecond : ∀ t, l'.registry.subscribes t ⟨2⟩ = false := by
    intro t
    cases t <;> decide +kernel
  have hrooms : reg.roomFarewell ⟨1⟩ =
      [.removeServer ⟨1, false, 0⟩, .gameServerData ((visited.without ⟨1⟩).snapshot 0)] := by
    simp [Registry.roomFarewell, howned, hvisited, hid, hrunning]
  have hfarewell : a.farewell true =
      [.userLoggedOut ⟨1⟩, .chat (News.announcement [0x41] "has logged out >>")] := by
    decide +kernel
  refine ⟨hn, hpurged, visited, hvisited, hplayers, ?_, ?_⟩
  · rw [htold a ha, hthird _ (by decide), hthird _ (by decide), if_pos rfl, if_pos rfl, hrooms]
    exact congrArg ([_, _] ++ ·) hfarewell
  · rw [htold a ha, hsecond, hsecond]
    rfl

end Lobby

end GameLobby
