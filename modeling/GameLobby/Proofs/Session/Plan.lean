import GameLobby.Proofs.Session.Deed
import GameLobby.Session.Basic

/-!
# What requests come to

A request is a program of steps. `Session.plan` says what it comes to: the rejection, if it is
rejected, or else the deeds that are done, in order. What a turn does to the registry and what it
offers can so be read off a list. Main statements: `run_carryOut`, by which a rejected request does
nothing at all, and `serve_eq_performAll`, `handle_eq_performAll` and `depart_eq_performAll`, by
which a turn is its deeds and nothing else.
-/

namespace GameLobby

namespace Deed

/-- The answer that a request was carried out. -/
def ok (v : Visitor) (ticketId : UInt32) : Deed :=
  .send v.conn (.resultMessage (.ok ticketId))

/-- News of a room as it is now. -/
def tellRoom (ticketId : UInt32) (room : Room) : Deed :=
  .tell (.roomUpdated (room.snapshot ticketId))

end Deed

namespace Session

open Handler Deed Registry

/-! ## Plans -/

section Plans

variable (rules : Rules) (v : Visitor) (reg : Registry)

/-- A login or a new account. -/
def enterPlan (entry : Entry) (credentials : Credentials) (patchlevel ticketId : UInt32) :
    Except Rejection (List Deed) :=
  if patchlevel ≠ rules.config.patchlevel then
    .error (.wrongVersion rules.config.patchlevel patchlevel)
  else
    match reg.account? v.conn with
    | some _ => .ok [.ok v ticketId]
    | none =>
      match rules.gatekeeper entry credentials with
      | some e => .error (.ofRefusal entry e)
      | none =>
        .ok [.call (.logIn v.conn credentials.nickname v.conn), .ok v ticketId,
          .tell (.loggedIn ⟨reg.lastUid + 1⟩ credentials.nickname)]

/-- A topic turned on or off, and what else is done then. -/
def subscribePlan (t : Topic) (on : Bool) (rest : Registry → List Deed) :
    Except Rejection (List Deed) :=
  match reg.account? v.conn with
  | none => .error .notLoggedIn
  | some _ =>
    .ok (.call (.setSubscription v.conn t on) :: rest (reg.setSubscription v.conn t on).2)

/-- The seat in somebody else's room given up, if there is one. -/
def seatGivenUp (ticketId : UInt32) : List Deed :=
  match reg.joined? v.conn with
  | none => []
  | some id =>
    .call (.leaveSeat id v.conn) ::
      match (reg.leaveSeat id v.conn).1 with
      | .error _ => []
      | .ok room => [.tellRoom ticketId room]

/-- The room of a connection taken away, and `notice` if there was one. -/
def roomClosed (notice : Room → RemoveServer) : List Deed :=
  .call (.closeRoom v.conn) ::
    match reg.roomOf? v.conn with
    | none => []
    | some room => [.tell (.roomRemoved (notice room))]

/-- A room of the sender that is new. -/
def roomOffered (room : Room) (ticketId : UInt32) : List Deed :=
  [.call (.openRoom v.conn room.ownerUid room.settings),
    .send v.conn (.resultId (.ok room.id.number ticketId)), .tellRoom ticketId room]

/-- A new room of the sender, in the place of the one it owned and of the seat it had elsewhere. -/
def openRoomPlan (r : AddGameServer) : Except Rejection (List Deed) :=
  match reg.account? v.conn with
  | none => .error .notLoggedIn
  | some account =>
    let settings := offeredSettings rules v r
    let placeholder := Message.gameServerData (settings.snapshot ⟨0⟩ account.uid r.ticketId)
    if r.port = rules.config.bridgeErrorPort then .error .bridgeFailed
    else if !placeholder.fits then .error (.tooLarge placeholder.payload.length)
    else
      .ok (roomClosed v reg (fun room => ⟨room.id.number, room.running, r.ticketId⟩) ++
        seatGivenUp v (reg.closeRoom v.conn).2 r.ticketId ++
        roomOffered v (.opened ⟨reg.lastRoomId + 1⟩ v.conn account.uid settings) r.ticketId)

/-- The room of the sender, if it is room `id`. -/
def ownRoom? (id : RoomId) : Except Rejection Room :=
  match reg.roomOf? v.conn with
  | none => .error .noRoom
  | some room => if room.id = id then .ok room else .error (.otherRoom room.id id)

/-- A room that starts its game, and its players who see it. -/
def gameStarted (room : Room) (ticketId : UInt32) : List Deed :=
  let started := { room with running := true }
  [.call (.editRoom v.conn fun l => { l with running := true }),
    .exhibit ((reg.accountsInOrder.filter fun a => started.hasSeat a.conn).map (·.outbox))
      (.gameServerData (started.snapshot ticketId))]

/-- The sender's room taken away. -/
def closeRoomPlan (r : RemoveServer) : Except Rejection (List Deed) :=
  match ownRoom? v reg ⟨r.serverId⟩ with
  | .error e => .error e
  | .ok room =>
    .ok ((if r.running then gameStarted v reg room r.ticketId else []) ++
      [.call (.closeRoom v.conn), .tell (.roomRemoved r), .ok v r.ticketId])

/-- The sender's room changed. -/
def changeRoomPlan (r : ChangeGameServer) : Except Rejection (List Deed) :=
  match ownRoom? v reg ⟨r.serverId⟩ with
  | .error e => .error e
  | .ok room =>
    let settings := changedSettings room.settings r
    let placeholder :=
      Message.gameServerData (settings.snapshot room.id room.ownerUid r.ticketId)
    if !placeholder.fits then .error (.tooLarge placeholder.payload.length)
    else
      .ok [.call (.editRoom v.conn fun _ => ⟨settings, r.running, r.propertyMask⟩),
        .tellRoom r.ticketId { room with toListing := ⟨settings, r.running, r.propertyMask⟩ },
        .ok v r.ticketId]

/-- A seat in a room, for the one that the sender has elsewhere. -/
def joinRoomPlan (r : JoinServer) : Except Rejection (List Deed) :=
  match reg.room? ⟨r.serverId⟩ with
  | none => .error (.roomNotFound ⟨r.serverId⟩)
  | some room =>
    if !room.hasSeat v.conn && room.isFull then .error (.roomFull ⟨r.serverId⟩)
    else
      match reg.account? v.conn with
      | none => .error .notLoggedIn
      | some _ =>
        match (reg.changeSeat ⟨r.serverId⟩ v.conn).1 with
        | .error e => .error (.ofRegistry e)
        | .ok change =>
          .ok (.call (.changeSeat ⟨r.serverId⟩ v.conn) ::
            change.left.toList.map (.tellRoom r.ticketId) ++
            [.ok v r.ticketId, .tellRoom r.ticketId change.entered])

/-- The seat in somebody else's room given up. -/
def leaveRoomPlan (r : LeaveServer) : Except Rejection (List Deed) :=
  match reg.account? v.conn with
  | none => .error .notLoggedIn
  | some account =>
    match account.joinedRoom with
    | none => .error .notJoined
    | some id =>
      match (reg.leaveSeat id v.conn).1 with
      | .error e => .error (.ofRegistry e)
      | .ok room =>
        .ok [.call (.leaveSeat id v.conn), .ok v r.ticketId, .tellRoom r.ticketId room]

/-- What a request comes to. -/
def plan : Request → Except Rejection (List Deed)
  | .chat r =>
    match reg.account? v.conn with
    | none => .error .notLoggedIn
    | some account => .ok [.tell (.chatPosted account.uid r.text)]
  | .login r =>
    enterPlan rules v reg .login ⟨r.nickname, r.password, r.cdkey, r.keypool⟩ r.patchlevel
      r.ticketId
  | .newAccount r =>
    enterPlan rules v reg .newAccount ⟨r.nickname, r.password, r.cdkey, r.keypool⟩ r.patchlevel
      r.ticketId
  | .motd r =>
    match reg.account? v.conn with
    | none => .error .notLoggedIn
    | some account => .ok [.send v.conn (.motd ⟨rules.config.motdText account.name, r.ticketId⟩)]
  | .watchChat r => subscribePlan v reg .chat true fun _ => [.ok v r.ticketId]
  | .unwatchChat r => subscribePlan v reg .chat false fun _ => [.ok v r.ticketId]
  | .watchLogins r =>
    subscribePlan v reg .logins true fun reg =>
      .ok v r.ticketId ::
        (reg.subscribers .logins).map fun a => .send v.conn (.userLoggedIn ⟨a.uid.number, a.name⟩)
  | .unwatchLogins r => subscribePlan v reg .logins false fun _ => [.ok v r.ticketId]
  | .watchRooms r =>
    subscribePlan v reg .rooms true fun reg =>
      (reg.roomsInOrder.map fun room =>
        .send v.conn (.gameServerData (room.snapshot r.ticketId))) ++ [.ok v r.ticketId]
  | .unwatchRooms r => subscribePlan v reg .rooms false fun _ => [.ok v r.ticketId]
  | .openRoom r => openRoomPlan rules v reg r
  | .closeRoom r => closeRoomPlan v reg r
  | .changeRoom r => changeRoomPlan v reg r
  | .joinRoom r => joinRoomPlan v reg r
  | .leaveRoom r => leaveRoomPlan v reg r

/-- What is done about a request: the plan, or else the answer that it is rejected. -/
def deeds (r : Request) : List Deed :=
  match plan rules v reg r with
  | .ok ds => ds
  | .error rejection => [.send v.conn (.resultMessage (rejection.answer r.ticketId))]

/-- What is done about a frame. -/
def frameDeeds (f : Frame) : List Deed :=
  match request? f with
  | none => []
  | some r => deeds rules v reg r

/-- What is done at the end of a session. -/
def departureDeeds (conn : ConnectionId) : List Deed :=
  match (reg.logOut conn).1 with
  | none => []
  | some d => .call (.logOut conn) :: (farewell d).map .tell

/-- What a program comes to that follows a plan. -/
def follow (t : Turn) : Except Rejection (List Deed) → Except Rejection Unit × Turn
  | .ok ds => (.ok (), performAll rules ds t)
  | .error e => (.error e, t)

end Plans

/-! ## Plans that are carried out -/

section Plans

variable {rules : Rules} {v : Visitor} {reg : Registry} {ds : List Deed}

theorem enterPlan_ok {entry : Entry} {credentials : Credentials} {patchlevel ticketId : UInt32}
    (h : enterPlan rules v reg entry credentials patchlevel ticketId = .ok ds) :
    ds = [.ok v ticketId] ∨
      reg.account? v.conn = none ∧
        ds = [.call (.logIn v.conn credentials.nickname v.conn), .ok v ticketId,
          .tell (.loggedIn ⟨reg.lastUid + 1⟩ credentials.nickname)] := by
  unfold enterPlan at h
  split at h
  · exact nomatch h
  split at h
  · cases h
    exact .inl rfl
  rename_i hnone
  split at h
  · exact nomatch h
  · cases h
    exact .inr ⟨hnone, rfl⟩

theorem subscribePlan_ok {topic : Topic} {on : Bool} {rest : Registry → List Deed}
    (h : subscribePlan v reg topic on rest = .ok ds) :
    ∃ a, reg.account? v.conn = some a ∧
      ds = .call (.setSubscription v.conn topic on) ::
        rest (reg.setSubscription v.conn topic on).2 := by
  unfold subscribePlan at h
  split at h
  · exact nomatch h
  · rename_i a ha
    cases h
    exact ⟨a, ha, rfl⟩

theorem subscribePlan_of_some {topic : Topic} {on : Bool} {rest : Registry → List Deed}
    {a : Account} (ha : reg.account? v.conn = some a) :
    subscribePlan v reg topic on rest =
      .ok (.call (.setSubscription v.conn topic on) ::
        rest (reg.setSubscription v.conn topic on).2) := by
  unfold subscribePlan
  rw [ha]

theorem openRoomPlan_ok {r : AddGameServer} (h : openRoomPlan rules v reg r = .ok ds) :
    ∃ a, reg.account? v.conn = some a ∧
      (Message.gameServerData
        ((offeredSettings rules v r).snapshot ⟨0⟩ a.uid r.ticketId)).fits ∧
      ds = roomClosed v reg (fun room => ⟨room.id.number, room.running, r.ticketId⟩) ++
        seatGivenUp v (reg.closeRoom v.conn).2 r.ticketId ++
        roomOffered v (.opened ⟨reg.lastRoomId + 1⟩ v.conn a.uid (offeredSettings rules v r))
          r.ticketId := by
  unfold openRoomPlan at h
  split at h
  · exact nomatch h
  rename_i a ha
  dsimp only at h
  split at h
  · exact nomatch h
  split at h
  · exact nomatch h
  · rename_i hfits
    cases h
    exact ⟨a, ha, by simpa using hfits, rfl⟩

theorem ownRoom?_ok {id : RoomId} {room : Room} (h : ownRoom? v reg id = .ok room) :
    reg.roomOf? v.conn = some room ∧ room.id = id := by
  unfold ownRoom? at h
  split at h
  · exact nomatch h
  rename_i r hr
  split at h
  · rename_i hid
    cases h
    exact ⟨hr, hid⟩
  · exact nomatch h

theorem closeRoomPlan_ok {r : RemoveServer} (h : closeRoomPlan v reg r = .ok ds) :
    ∃ room, reg.roomOf? v.conn = some room ∧ room.id = ⟨r.serverId⟩ ∧
      ds = (if r.running then gameStarted v reg room r.ticketId else []) ++
        [.call (.closeRoom v.conn), .tell (.roomRemoved r), .ok v r.ticketId] := by
  unfold closeRoomPlan at h
  split at h
  · exact nomatch h
  · rename_i room hown
    cases h
    obtain ⟨hroom, hid⟩ := ownRoom?_ok hown
    exact ⟨room, hroom, hid, rfl⟩

theorem changeRoomPlan_ok {r : ChangeGameServer} (h : changeRoomPlan v reg r = .ok ds) :
    ∃ room, reg.roomOf? v.conn = some room ∧ room.id = ⟨r.serverId⟩ ∧
      (Message.gameServerData ((changedSettings room.settings r).snapshot room.id room.ownerUid
        r.ticketId)).fits ∧
      ds = [.call (.editRoom v.conn fun _ =>
          ⟨changedSettings room.settings r, r.running, r.propertyMask⟩),
        .tellRoom r.ticketId
          { room with toListing := ⟨changedSettings room.settings r, r.running, r.propertyMask⟩ },
        .ok v r.ticketId] := by
  unfold changeRoomPlan at h
  split at h
  · exact nomatch h
  rename_i room hown
  dsimp only at h
  split at h
  · exact nomatch h
  · rename_i hfits
    cases h
    obtain ⟨hroom, hid⟩ := ownRoom?_ok hown
    exact ⟨room, hroom, hid, by simpa using hfits, rfl⟩

theorem joinRoomPlan_ok {r : JoinServer} (h : joinRoomPlan v reg r = .ok ds) :
    ∃ a change, reg.account? v.conn = some a ∧
      (reg.changeSeat ⟨r.serverId⟩ v.conn).1 = .ok change ∧
      ds = .call (.changeSeat ⟨r.serverId⟩ v.conn) ::
        change.left.toList.map (.tellRoom r.ticketId) ++
        [.ok v r.ticketId, .tellRoom r.ticketId change.entered] := by
  unfold joinRoomPlan at h
  split at h
  · exact nomatch h
  split at h
  · exact nomatch h
  split at h
  · exact nomatch h
  rename_i a ha
  split at h
  · exact nomatch h
  · rename_i change hchange
    cases h
    exact ⟨a, change, ha, hchange, rfl⟩

theorem leaveRoomPlan_ok {r : LeaveServer} (h : leaveRoomPlan v reg r = .ok ds) :
    ∃ id room, (reg.leaveSeat id v.conn).1 = .ok room ∧
      ds = [.call (.leaveSeat id v.conn), .ok v r.ticketId, .tellRoom r.ticketId room] := by
  unfold leaveRoomPlan at h
  split at h
  · exact nomatch h
  split at h
  · exact nomatch h
  rename_i id _
  split at h
  · exact nomatch h
  · rename_i room hroom
    cases h
    exact ⟨id, room, hroom, rfl⟩

theorem afterAll_seatGivenUp (ticketId : UInt32) :
    afterAll reg (seatGivenUp v reg ticketId) =
      match reg.joined? v.conn with
      | none => reg
      | some id => (reg.leaveSeat id v.conn).2 := by
  unfold seatGivenUp
  cases reg.joined? v.conn with
  | none => rfl
  | some id =>
    cases hleft : (reg.leaveSeat id v.conn).1 with
    | error e => simp [hleft, afterAll, after, Call.apply]
    | ok room => simp [hleft, afterAll, after, Call.apply, tellRoom]

/-- What a seat that is left keeps, is kept. -/
theorem seatGivenUp_preserves {I : Registry → Prop} (ticketId : UInt32) (h : I reg)
    (hleave : ∀ id, I (reg.leaveSeat id v.conn).2) :
    I (afterAll reg (seatGivenUp v reg ticketId)) := by
  rw [afterAll_seatGivenUp]
  split
  · exact h
  · exact hleave _

theorem roomOf?_seatGivenUp (ticketId : UInt32) (hnone : reg.roomOf? v.conn = none) :
    (afterAll reg (seatGivenUp v reg ticketId)).roomOf? v.conn = none :=
  @seatGivenUp_preserves v reg (·.roomOf? v.conn = none) ticketId hnone fun _ =>
    roomOf?_leaveSeat_of_none hnone

theorem lastRoomId_seatGivenUp (ticketId : UInt32) :
    (afterAll reg (seatGivenUp v reg ticketId)).lastRoomId = reg.lastRoomId :=
  @seatGivenUp_preserves v reg (·.lastRoomId = reg.lastRoomId) ticketId rfl fun id =>
    lastRoomId_leaveSeat id

theorem account?_seatGivenUp {c : ConnectionId} {a : Account} (ticketId : UInt32)
    (ha : reg.account? c = some a) :
    ∃ b, (afterAll reg (seatGivenUp v reg ticketId)).account? c = some b ∧ b.uid = a.uid :=
  @seatGivenUp_preserves v reg (fun reg => ∃ b, reg.account? c = some b ∧ b.uid = a.uid) ticketId
    ⟨a, ha, rfl⟩ fun id => account?_leaveSeat id ha

theorem afterAll_roomClosed (notice : Room → RemoveServer) :
    afterAll reg (roomClosed v reg notice) = (reg.closeRoom v.conn).2 := by
  unfold roomClosed
  split <;> rfl

end Plans

/-! ## Programs follow their plans -/

section Run

variable {rules : Rules} {v : Visitor} {t : Turn}

section MapError

variable {ε ε' α : Type} (f : ε → ε')

@[simp] theorem mapError_ok (a : α) : (Except.ok a : Except ε α).mapError f = .ok a := rfl

@[simp] theorem mapError_error (e : ε) :
    (Except.error e : Except ε α).mapError f = .error (f e) := rfl

end MapError

theorem run_enter (entry : Entry) (credentials : Credentials) (patchlevel ticketId : UInt32) :
    run (enter rules v entry credentials patchlevel ticketId) t =
      follow rules t (enterPlan rules v t.registry entry credentials patchlevel ticketId) := by
  unfold enter enterPlan
  by_cases hp : patchlevel = rules.config.patchlevel
  · cases ha : t.registry.account? v.conn with
    | some a => simp [hp, ha, sendOk, Deed.ok, follow]
    | none =>
      cases rules.gatekeeper entry credentials with
      | some e => simp [hp, ha, follow]
      | none =>
        simp [hp, ha, logIn_of_none ha, sendOk, Deed.ok, Call.apply, follow]
  · simp [hp, follow]

theorem run_demand_setSubscription (topic : Topic) (on : Bool) :
    run (demand (·.setSubscription v.conn topic on)) t =
      match t.registry.account? v.conn with
      | none => (.error .notLoggedIn, t)
      | some _ =>
        (.ok (), { t with registry := (t.registry.setSubscription v.conn topic on).2 }) := by
  rw [run_demand]
  cases ha : t.registry.account? v.conn with
  | none => simp [setSubscription_of_none ha, Rejection.ofRegistry]
  | some a => simp [setSubscription_of_some ha]

theorem run_subscribe (topic : Topic) (on : Bool) (ticketId : UInt32) :
    run (subscribe v topic on ticketId) t =
      follow rules t (subscribePlan v t.registry topic on fun _ => [.ok v ticketId]) := by
  unfold subscribe subscribePlan
  rw [run_bind, run_demand_setSubscription]
  cases t.registry.account? v.conn with
  | none => rfl
  | some a => simp [sendOk, Deed.ok, Call.apply, follow]

theorem run_watchLogins (ticketId : UInt32) :
    run (watchLogins v ticketId) t =
      follow rules t (subscribePlan v t.registry .logins true fun reg =>
        .ok v ticketId ::
          (reg.subscribers .logins).map fun a =>
            .send v.conn (.userLoggedIn ⟨a.uid.number, a.name⟩)) := by
  unfold watchLogins subscribePlan
  rw [run_bind, run_demand_setSubscription]
  cases t.registry.account? v.conn with
  | none => rfl
  | some a => simp [sendOk, Deed.ok, Call.apply, follow, performAll_sends]

theorem run_watchRooms (ticketId : UInt32) :
    run (watchRooms v ticketId) t =
      follow rules t (subscribePlan v t.registry .rooms true fun reg =>
        (reg.roomsInOrder.map fun room =>
          .send v.conn (.gameServerData (room.snapshot ticketId))) ++ [.ok v ticketId]) := by
  unfold watchRooms subscribePlan
  rw [run_bind, run_demand_setSubscription]
  cases t.registry.account? v.conn with
  | none => rfl
  | some a => simp [sendOk, Deed.ok, Call.apply, follow, performAll_sends]

theorem run_giveUpSeat (ticketId : UInt32) :
    run (giveUpSeat rules v ticketId) t =
      (.ok (), performAll rules (seatGivenUp v t.registry ticketId) t) := by
  unfold giveUpSeat seatGivenUp joined?
  rw [run_bind, run_registry]
  dsimp only
  cases (t.registry.account? v.conn).bind (·.joinedRoom) with
  | none => simp
  | some id =>
    cases hleft : (t.registry.leaveSeat id v.conn).1 with
    | error e => simp [hleft, Call.apply]
    | ok room => simp [hleft, Call.apply, tellRoom]

/-- A room offered by a connection that has none. -/
theorem run_offerRoom (uid : UserId) (settings : RoomSettings) (ticketId : UInt32)
    (hnone : t.registry.roomOf? v.conn = none) :
    run (do
      giveUpSeat rules v ticketId
      let room ← demand (·.openRoom v.conn uid settings)
      send v (.resultId (.ok room.id.number ticketId))
      tell rules (.roomUpdated (room.snapshot ticketId))) t =
      (.ok (), performAll rules (seatGivenUp v t.registry ticketId ++
        roomOffered v (.opened ⟨t.registry.lastRoomId + 1⟩ v.conn uid settings) ticketId) t) := by
  have hstill : (performAll rules (seatGivenUp v t.registry ticketId) t).registry.roomOf? v.conn =
      none := by
    rw [registry_performAll]
    exact roomOf?_seatGivenUp ticketId hnone
  have hlast : (performAll rules (seatGivenUp v t.registry ticketId) t).registry.lastRoomId =
      t.registry.lastRoomId := by
    rw [registry_performAll, lastRoomId_seatGivenUp]
  simp [run_giveUpSeat, openRoom_of_none hstill, hlast, roomOffered, Call.apply,
    tellRoom, Room.opened]

theorem run_openRoom (r : AddGameServer) :
    run (openRoom rules v r) t = follow rules t (openRoomPlan rules v t.registry r) := by
  unfold openRoom openRoomPlan ownAccount
  cases ha : t.registry.account? v.conn with
  | none => simp [ha, follow]
  | some a =>
    by_cases hport : r.port = rules.config.bridgeErrorPort
    · simp [ha, hport, follow]
    by_cases hfits : (Message.gameServerData
        ((offeredSettings rules v r).snapshot ⟨0⟩ a.uid r.ticketId)).fits
    · have hnone : (t.registry.closeRoom v.conn).2.roomOf? v.conn = none := by
        rw [roomOf?_closeRoom, if_pos rfl]
      simp only [run_bind, run_registry, ha, run_orReject_some, hport, ite_false, ensureFits, hfits,
        ite_true, run_pure, run_apply, closeRoom_fst]
      have hlast : (t.registry.closeRoom v.conn).2.lastRoomId = t.registry.lastRoomId :=
        lastRoomId_closeRoom
      cases hroom : t.registry.roomOf? v.conn with
      | none =>
        dsimp only
        rw [run_offerRoom a.uid _ r.ticketId hnone, hlast]
        simp [roomClosed, hroom, follow, Call.apply]
      | some room =>
        dsimp only
        rw [run_bind, run_tell]
        dsimp only
        rw [run_offerRoom a.uid _ r.ticketId hnone, hlast]
        simp [roomClosed, hroom, follow, Call.apply]
    · simp [ha, hport, hfits, follow, ensureFits]

theorem run_ownRoom (id : RoomId) :
    run (ownRoom v id) t =
      match ownRoom? v t.registry id with
      | .ok room => (.ok room, t)
      | .error e => (.error e, t) := by
  unfold ownRoom ownRoom?
  cases hroom : t.registry.roomOf? v.conn with
  | none => simp [hroom]
  | some room =>
    by_cases hid : room.id = id
    · simp [hroom, hid]
    · simp [hroom, hid]

theorem run_startGame (rules : Rules) {room : Room} (hroom : t.registry.roomOf? v.conn = some room)
    (ticketId : UInt32) :
    run (startGame v room ticketId) t =
      (.ok (), performAll rules (gameStarted v t.registry room ticketId) t) := by
  simp [startGame, gameStarted, editRoom_of_room hroom, Room.relist]
  rfl

theorem run_closeRoom (r : RemoveServer) :
    run (closeRoom rules v r) t = follow rules t (closeRoomPlan v t.registry r) := by
  unfold closeRoom closeRoomPlan
  rw [run_bind, run_ownRoom]
  cases hown : ownRoom? v t.registry ⟨r.serverId⟩ with
  | error e => rfl
  | ok room =>
    obtain ⟨hroom, -⟩ := ownRoom?_ok hown
    by_cases hrun : r.running
    · have hstarted : (t.registry.editRoom v.conn fun l => { l with running := true }).2.roomOf?
          v.conn = some { room with running := true } := roomOf?_editRoom_of_room hroom
      have hrunning : (performAll rules (gameStarted v t.registry room r.ticketId) t).registry =
          (t.registry.editRoom v.conn fun l => { l with running := true }).2 := rfl
      simp [hrun, run_startGame rules hroom, closeRoom_fst, hrunning, hstarted, follow, sendOk,
        Deed.ok, Call.apply]
    · simp [hrun, closeRoom_fst, hroom, follow, sendOk, Deed.ok, Call.apply]

theorem run_changeRoom (r : ChangeGameServer) :
    run (changeRoom rules v r) t = follow rules t (changeRoomPlan v t.registry r) := by
  unfold changeRoom changeRoomPlan
  rw [run_bind, run_ownRoom]
  cases hown : ownRoom? v t.registry ⟨r.serverId⟩ with
  | error e => rfl
  | ok room =>
    obtain ⟨hroom, -⟩ := ownRoom?_ok hown
    by_cases hfits : (Message.gameServerData
        ((changedSettings room.settings r).snapshot room.id room.ownerUid r.ticketId)).fits
    · simp [hfits, ensureFits, editRoom_of_room hroom, Room.relist, follow, sendOk, Deed.ok,
        tellRoom]
    · simp [hfits, ensureFits, follow]

theorem run_joinRoom (r : JoinServer) :
    run (joinRoom rules v r) t = follow rules t (joinRoomPlan v t.registry r) := by
  unfold joinRoom joinRoomPlan ownAccount
  cases hroom : t.registry.room? ⟨r.serverId⟩ with
  | none => simp [hroom, follow]
  | some room =>
    simp only [run_bind, run_registry, hroom, run_orReject_some]
    cases hfull : !room.hasSeat v.conn && room.isFull with
    | true => simp [follow]
    | false =>
      cases ha : t.registry.account? v.conn with
      | none => simp [ha, follow]
      | some a =>
        cases hchange : (t.registry.changeSeat ⟨r.serverId⟩ v.conn).1 with
        | error e =>
          simp [ha, hchange, changeSeat_of_error hchange, follow]
        | ok change =>
          cases hleft : change.left with
          | none =>
            simp [ha, hchange, hleft, follow, sendOk, Deed.ok, Call.apply,
              tellRoom]
          | some left =>
            simp [ha, hchange, hleft, follow, sendOk, Deed.ok, Call.apply,
              tellRoom]

theorem run_leaveRoom (r : LeaveServer) :
    run (leaveRoom rules v r) t = follow rules t (leaveRoomPlan v t.registry r) := by
  unfold leaveRoom leaveRoomPlan ownAccount
  cases ha : t.registry.account? v.conn with
  | none => simp [ha, follow]
  | some a =>
    cases hj : a.joinedRoom with
    | none => simp [ha, hj, follow]
    | some id =>
      cases hleft : (t.registry.leaveSeat id v.conn).1 with
      | error e => simp [ha, hj, hleft, leaveSeat_of_error hleft, follow]
      | ok room =>
        simp [ha, hj, hleft, follow, sendOk, Deed.ok, Call.apply, tellRoom]

/-- **Plans.** A request does what its plan says, and nothing if it is rejected. -/
theorem run_carryOut (rules : Rules) (v : Visitor) (r : Request) (t : Turn) :
    run (carryOut rules v r) t = follow rules t (plan rules v t.registry r) := by
  cases r with
  | chat r =>
    show run (chat rules v r) t = _
    unfold chat plan ownAccount
    cases ha : t.registry.account? v.conn with
    | none => simp [ha, follow]
    | some a => simp [ha, follow]
  | motd r =>
    show run (motd rules v r) t = _
    unfold motd plan ownAccount
    cases ha : t.registry.account? v.conn with
    | none => simp [ha, follow]
    | some a => simp [ha, follow]
  | login r => exact run_enter ..
  | newAccount r => exact run_enter ..
  | watchChat r => exact run_subscribe ..
  | unwatchChat r => exact run_subscribe ..
  | watchLogins r => exact run_watchLogins ..
  | unwatchLogins r => exact run_subscribe ..
  | watchRooms r => exact run_watchRooms ..
  | unwatchRooms r => exact run_subscribe ..
  | openRoom r => exact run_openRoom r
  | closeRoom r => exact run_closeRoom r
  | changeRoom r => exact run_changeRoom r
  | joinRoom r => exact run_joinRoom r
  | leaveRoom r => exact run_leaveRoom r

end Run

/-- A request comes out as its plan does. -/
theorem outcome_eq (rules : Rules) (v : Visitor) (reg : Registry) (r : Request) :
    (run (carryOut rules v r) ⟨reg, []⟩).1 = (plan rules v reg r).map fun _ => () := by
  rw [run_carryOut]
  show (follow rules ⟨reg, []⟩ (plan rules v reg r)).1 = _
  cases plan rules v reg r <;> rfl

/-- A request that goes through has a plan, and the plan is what is done. -/
theorem plan_of_served {rules : Rules} {v : Visitor} {reg : Registry} {r : Request}
    (h : (run (carryOut rules v r) ⟨reg, []⟩).1 = .ok ()) :
    plan rules v reg r = .ok (deeds rules v reg r) := by
  rw [run_carryOut] at h
  unfold deeds
  cases hplan : plan rules v reg r with
  | error e =>
    dsimp only at h
    rw [hplan] at h
    cases h
  | ok ds => rfl

theorem served_of_plan {rules : Rules} {v : Visitor} {reg : Registry} {r : Request}
    {ds : List Deed} (h : plan rules v reg r = .ok ds) :
    (run (carryOut rules v r) ⟨reg, []⟩).1 = .ok () := by
  rw [run_carryOut]
  dsimp only
  rw [h]
  rfl

/-! ## Turns are their deeds -/

/-- A request that is served comes to its deeds. -/
theorem serve_eq_performAll (rules : Rules) (v : Visitor) (r : Request) (t : Turn) :
    serve rules v r t = performAll rules (deeds rules v t.registry r) t := by
  unfold serve deeds
  rw [run_carryOut]
  cases plan rules v t.registry r with
  | error e => simp [follow]
  | ok ds => rfl

theorem handle_eq_performAll (rules : Rules) (v : Visitor) (f : Frame) (t : Turn) :
    handle rules v f t = performAll rules (frameDeeds rules v t.registry f) t := by
  unfold handle frameDeeds
  cases request? f with
  | none => rfl
  | some r => exact serve_eq_performAll rules v r t

theorem frameDeeds_of_request {rules : Rules} {v : Visitor} {reg : Registry} {f : Frame}
    {r : Request} (h : request? f = some r) : frameDeeds rules v reg f = deeds rules v reg r := by
  unfold frameDeeds
  rw [h]

/-- A turn in which a request is carried out. -/
theorem handle_of_plan {rules : Rules} {v : Visitor} {reg : Registry} {f : Frame} {r : Request}
    {ds : List Deed} (h : request? f = some r) (hplan : plan rules v reg r = .ok ds) :
    handle rules v f ⟨reg, []⟩ = ⟨afterAll reg ds, offersAll rules reg ds⟩ := by
  rw [handle_eq_performAll, performAll_eq, frameDeeds_of_request h, deeds, hplan]
  rfl

/-- A turn in which a call is made and then the client is sent something. -/
theorem handle_of_script {rules : Rules} {v : Visitor} {reg : Registry} {f : Frame} {r : Request}
    {call : Registry.Call} {script : List Message} (h : request? f = some r)
    (hplan : plan rules v reg r = .ok (.call call :: script.map fun m => .send v.conn m)) :
    handle rules v f ⟨reg, []⟩ = ⟨call.apply reg, script.map fun m => ⟨v.conn, m⟩⟩ := by
  rw [handle_of_plan h hplan]
  show Turn.mk (afterAll (call.apply reg) _) (offersAll rules (call.apply reg) _) = _
  rw [afterAll_sends, offersAll_sends]

/-- A turn in which a request is rejected. -/
theorem handle_of_plan_error {rules : Rules} {v : Visitor} {reg : Registry} {f : Frame}
    {r : Request} {e : Rejection} (h : request? f = some r)
    (hplan : plan rules v reg r = .error e) :
    handle rules v f ⟨reg, []⟩ =
      ⟨reg, [⟨v.conn, .resultMessage (e.answer r.ticketId)⟩]⟩ := by
  rw [handle_eq_performAll, frameDeeds_of_request h, deeds, hplan]
  rfl

/-- A request that does not go through is answered, and that is all. -/
theorem handle_of_refused {rules : Rules} {v : Visitor} {reg : Registry} {f : Frame} {r : Request}
    {e : Rejection} (h : request? f = some r)
    (hrefused : (run (carryOut rules v r) ⟨reg, []⟩).1 = .error e) :
    handle rules v f ⟨reg, []⟩ =
      ⟨reg, [⟨v.conn, .resultMessage (e.answer r.ticketId)⟩]⟩ := by
  rw [outcome_eq] at hrefused
  cases hplan : plan rules v reg r with
  | error e' =>
    rw [hplan] at hrefused
    cases hrefused
    exact handle_of_plan_error h hplan
  | ok ds =>
    rw [hplan] at hrefused
    exact nomatch hrefused

/-- A frame comes to nothing, to a plan, or to the answer that it is rejected. -/
theorem frameDeeds_cases (rules : Rules) (v : Visitor) (reg : Registry) (f : Frame) :
    frameDeeds rules v reg f = [] ∨
      (∃ r ds, request? f = some r ∧ plan rules v reg r = .ok ds ∧
        frameDeeds rules v reg f = ds) ∨
      ∃ answer, frameDeeds rules v reg f = [.send v.conn (.resultMessage answer)] := by
  unfold frameDeeds
  split
  · exact .inl rfl
  · rename_i r hr
    unfold deeds
    split
    · rename_i ds hplan
      exact .inr (.inl ⟨r, ds, hr, hplan, rfl⟩)
    · exact .inr (.inr ⟨_, rfl⟩)

theorem depart_eq_performAll (rules : Rules) (conn : ConnectionId) (t : Turn) :
    depart rules conn t = performAll rules (departureDeeds t.registry conn) t := by
  unfold depart departureDeeds
  rcases hout : t.registry.logOut conn with ⟨_ | d, reg'⟩
  · simp
  · simp [performAll_tells, Call.apply, hout]

theorem afterAll_departureDeeds (reg : Registry) (conn : ConnectionId) :
    afterAll reg (departureDeeds reg conn) = (reg.logOut conn).2 := by
  unfold departureDeeds
  rcases logOut_cases reg conn with ⟨-, heq⟩ | ⟨a, -, hout, -⟩
  · rw [heq]
    rfl
  · rw [hout]
    exact afterAll_tells ..

end Session

end GameLobby
