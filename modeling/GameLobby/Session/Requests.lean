import GameLobby.Message.Request
import GameLobby.Session.Turn

/-!
# Carrying out requests

One function for each request. Each asks the registry whether the request can be carried out before
it changes anything, and the order of its questions decides which rejection a request with two
faults gets. The order of its offers is the order in which clients see them.
-/

namespace GameLobby.Session

open Handler

variable (rules : Rules) (v : Visitor)

/-! ## What requests rely on -/

/-- The account of the sender. -/
def ownAccount : Handler Account := do
  orReject .notLoggedIn ((← registry).account? v.conn)

/-- The room of the sender, which has to be room `id`. -/
def ownRoom (id : RoomId) : Handler Room := do
  let room ← orReject .noRoom ((← registry).roomOf? v.conn)
  if room.id = id then return room else throw (.otherRoom room.id id)

/-- Rejects a room that could not be shown. -/
def ensureFits (m : Message) : Handler Unit :=
  if m.fits then return () else throw (.tooLarge m.payload.length)

/-! ## Accounts -/

/-- A login or a new account. The patch level is looked at first. A sender who is logged in already
is answered without further questions. -/
def enter (entry : Entry) (credentials : Credentials) (patchlevel ticketId : UInt32) :
    Handler Unit := do
  if patchlevel ≠ rules.config.patchlevel then
    throw (.wrongVersion rules.config.patchlevel patchlevel)
  match (← registry).account? v.conn with
  | some _ => sendOk v ticketId
  | none =>
    if let some e := rules.gatekeeper entry credentials then throw (.ofRefusal entry e)
    let uid ← demand (·.logIn v.conn credentials.nickname v.conn)
    sendOk v ticketId
    tell rules (.loggedIn uid credentials.nickname)

/-- A login. -/
def login (r : RequestLogin) : Handler Unit :=
  enter rules v .login ⟨r.nickname, r.password, r.cdkey, r.keypool⟩ r.patchlevel r.ticketId

/-- A new account. -/
def newAccount (r : RequestCreateAccount) : Handler Unit :=
  enter rules v .newAccount ⟨r.nickname, r.password, r.cdkey, r.keypool⟩ r.patchlevel r.ticketId

/-- The message of the day. -/
def motd (r : RequestMotd) : Handler Unit := do
  let account ← ownAccount v
  send v (.motd ⟨rules.config.motdText account.name, r.ticketId⟩)

/-! ## Subscriptions -/

/-- A topic turned on or off, and the answer. -/
def subscribe (t : Topic) (on : Bool) (ticketId : UInt32) : Handler Unit := do
  demand (·.setSubscription v.conn t on)
  sendOk v ticketId

/-- Logins turned on. The answer comes first, then one message for everybody who watches logins,
the sender too. -/
def watchLogins (ticketId : UInt32) : Handler Unit := do
  demand (·.setSubscription v.conn .logins true)
  sendOk v ticketId
  let watchers := (← registry).subscribers .logins
  offer (watchers.map fun a => ⟨v.conn, .userLoggedIn ⟨a.uid.number, a.name⟩⟩)

/-- Rooms turned on. One message for every room comes first, then the answer. -/
def watchRooms (ticketId : UInt32) : Handler Unit := do
  demand (·.setSubscription v.conn .rooms true)
  let rooms := (← registry).roomsInOrder
  offer (rooms.map fun room => ⟨v.conn, .gameServerData (room.snapshot ticketId)⟩)
  sendOk v ticketId

/-! ## Chat -/

/-- A chat line for everybody who watches chat. There is no answer. -/
def chat (r : ChatMessage) : Handler Unit := do
  let account ← ownAccount v
  tell rules (.chatPosted account.uid r.text)

/-! ## Rooms -/

/-- The settings of a room that is offered. Rooms on the default port are reached at the owner's
address, the others through the lobby's. -/
def offeredSettings (r : AddGameServer) : RoomSettings where
  name := r.name
  description := r.description
  ip := Text.utf8 (if r.port = rules.config.defaultGamePort then v.peer.text else v.host.text)
  port := r.port
  serverType := r.serverType
  lobbyId := r.lobbyId
  version := r.version
  maxPlayers := r.maxPlayers
  aiPlayers := r.aiPlayers
  level := r.level
  gameMode := r.gameMode
  hardcore := r.hardcore
  map := r.map
  automaticJoin := r.automaticJoin
  data := r.data

/-- The seat in somebody else's room given up, if the sender has one. -/
def giveUpSeat (ticketId : UInt32) : Handler Unit := do
  if let some id := ((← registry).account? v.conn).bind (·.joinedRoom) then
    if let .ok room ← apply (·.leaveSeat id v.conn) then
      tell rules (.roomUpdated (room.snapshot ticketId))

/-- A new room of the sender, in the place of the one it owned and of the seat it had elsewhere. -/
def openRoom (r : AddGameServer) : Handler Unit := do
  let account ← ownAccount v
  if r.port = rules.config.bridgeErrorPort then throw .bridgeFailed
  let settings := offeredSettings rules v r
  ensureFits (.gameServerData (settings.snapshot ⟨0⟩ account.uid r.ticketId))
  if let some previous ← apply (·.closeRoom v.conn) then
    tell rules (.roomRemoved ⟨previous.id.number, previous.running, r.ticketId⟩)
  giveUpSeat rules v r.ticketId
  let room ← demand (·.openRoom v.conn account.uid settings)
  send v (.resultId (.ok room.id.number r.ticketId))
  tell rules (.roomUpdated (room.snapshot r.ticketId))

/-- The players of a room that starts its game are shown it for the last time. -/
def startGame (room : Room) (ticketId : UInt32) : Handler Unit := do
  let updated ← apply (·.editRoom v.conn fun l => { l with running := true })
  let started := updated.getD room
  let players := (← registry).accountsInOrder.filter fun a => started.hasSeat a.conn
  offer ((Message.gameServerData (started.snapshot ticketId)).offers (players.map (·.outbox)))

/-- The sender's room taken away, perhaps because its game starts. -/
def closeRoom (r : RemoveServer) : Handler Unit := do
  let room ← ownRoom v ⟨r.serverId⟩
  if r.running then startGame v room r.ticketId
  if (← apply (·.closeRoom v.conn)).isSome then tell rules (.roomRemoved r)
  sendOk v r.ticketId

/-- The settings of a room after a change. -/
def changedSettings (s : RoomSettings) (r : ChangeGameServer) : RoomSettings :=
  { s with
    name := r.name
    description := r.description
    maxPlayers := r.maxPlayers
    aiPlayers := r.slotsOccupied
    level := r.level
    gameMode := r.gameMode
    hardcore := r.hardcore
    map := r.map
    data := r.data }

/-- The sender's room changed. -/
def changeRoom (r : ChangeGameServer) : Handler Unit := do
  let current ← ownRoom v ⟨r.serverId⟩
  let settings := changedSettings current.settings r
  ensureFits (.gameServerData (settings.snapshot current.id current.ownerUid r.ticketId))
  let room ← orReject .noRoom
    (← apply (·.editRoom v.conn fun _ => ⟨settings, r.running, r.propertyMask⟩))
  tell rules (.roomUpdated (room.snapshot r.ticketId))
  sendOk v r.ticketId

/-! ## Seats -/

/-- A seat in a room, for the one that the sender has elsewhere. Whether there is such a room and
whether it has a place is asked before whether the sender is logged in. -/
def joinRoom (r : JoinServer) : Handler Unit := do
  let id : RoomId := ⟨r.serverId⟩
  let room ← orReject (.roomNotFound id) ((← registry).room? id)
  if !room.hasSeat v.conn && room.isFull then throw (.roomFull id)
  let _ ← ownAccount v
  let change ← demand (·.changeSeat id v.conn)
  if let some left := change.left then
    tell rules (.roomUpdated (left.snapshot r.ticketId))
  sendOk v r.ticketId
  tell rules (.roomUpdated (change.entered.snapshot r.ticketId))

/-- The seat in somebody else's room given up. -/
def leaveRoom (r : LeaveServer) : Handler Unit := do
  let account ← ownAccount v
  let id ← orReject .notJoined account.joinedRoom
  let room ← demand (·.leaveSeat id v.conn)
  sendOk v r.ticketId
  tell rules (.roomUpdated (room.snapshot r.ticketId))

/-! ## Any request -/

/-- What a request asks for. -/
def carryOut : Request → Handler Unit
  | .chat r => chat rules v r
  | .login r => login rules v r
  | .newAccount r => newAccount rules v r
  | .motd r => motd rules v r
  | .watchChat r => subscribe v .chat true r.ticketId
  | .unwatchChat r => subscribe v .chat false r.ticketId
  | .watchLogins r => watchLogins v r.ticketId
  | .unwatchLogins r => subscribe v .logins false r.ticketId
  | .watchRooms r => watchRooms v r.ticketId
  | .unwatchRooms r => subscribe v .rooms false r.ticketId
  | .openRoom r => openRoom rules v r
  | .closeRoom r => closeRoom rules v r
  | .changeRoom r => changeRoom rules v r
  | .joinRoom r => joinRoom rules v r
  | .leaveRoom r => leaveRoom rules v r

end GameLobby.Session
