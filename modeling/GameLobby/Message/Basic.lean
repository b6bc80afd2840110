import GameLobby.Message.Contents

/-!
# Messages

`Message` is the sum of all types of message. `Message.record` lays a message out in wire order and
`Message.ofRecord` makes a message of what is laid out so (`ofRecord_record`).
`Message.body` is its written form, and `Message.ofValues` the check that values are a message.
-/

namespace GameLobby

open Wire

/-- A message of any type. -/
inductive Message where
  | chatMessage (m : ChatMessage)
  | requestLogin (m : RequestLogin)
  | resultMessage (m : ResultMessage)
  | requestCreateAccount (m : RequestCreateAccount)
  | requestMotd (m : RequestMotd)
  | motd (m : Motd)
  | regObserverGlobalChat (m : RegObserverGlobalChat)
  | deregObserverGlobalChat (m : DeregObserverGlobalChat)
  | userLoggedIn (m : UserLoggedIn)
  | userLoggedOut (m : UserLoggedOut)
  | regObserverUserLogin (m : RegObserverUserLogin)
  | deregObserverUserLogin (m : DeregObserverUserLogin)
  | resultId (m : ResultId)
  | chat (m : Chat)
  | addGameServer (m : AddGameServer)
  | removeServer (m : RemoveServer)
  | gameServerData (m : GameServerData)
  | regObserverServerList (m : RegObserverServerList)
  | deregObserverServerList (m : DeregObserverServerList)
  | joinServer (m : JoinServer)
  | leaveServer (m : LeaveServer)
  | changeGameServer (m : ChangeGameServer)
  deriving DecidableEq, Repr

namespace Message

/-- The type of a message. -/
def type : Message → MessageType
  | .chatMessage _ => .chatMessage
  | .requestLogin _ => .requestLogin
  | .resultMessage _ => .resultMessage
  | .requestCreateAccount _ => .requestCreateAccount
  | .requestMotd _ => .requestMotd
  | .motd _ => .motd
  | .regObserverGlobalChat _ => .regObserverGlobalChat
  | .deregObserverGlobalChat _ => .deregObserverGlobalChat
  | .userLoggedIn _ => .userLoggedIn
  | .userLoggedOut _ => .userLoggedOut
  | .regObserverUserLogin _ => .regObserverUserLogin
  | .deregObserverUserLogin _ => .deregObserverUserLogin
  | .resultId _ => .resultId
  | .chat _ => .chat
  | .addGameServer _ => .addGameServer
  | .removeServer _ => .removeServer
  | .gameServerData _ => .gameServerData
  | .regObserverServerList _ => .regObserverServerList
  | .deregObserverServerList _ => .deregObserverServerList
  | .joinServer _ => .joinServer
  | .leaveServer _ => .leaveServer
  | .changeGameServer _ => .changeGameServer

/-! ## Fields in wire order -/

/-- The fields of a message in wire order. -/
def record : (m : Message) → Record m.type.fields
  | .chatMessage m => (m.mode, m.text, m.ticketId, ())
  | .requestLogin m => (m.nickname, m.password, m.cdkey, m.keypool, m.patchlevel, m.ticketId, ())
  | .resultMessage m => (m.errorCode, m.errorMessage, m.ticketId, ())
  | .requestCreateAccount m =>
    (m.nickname, m.password, m.cdkey, m.keypool, m.patchlevel, m.ticketId, ())
  | .requestMotd m => (m.ticketId, ())
  | .motd m => (m.text, m.ticketId, ())
  | .regObserverGlobalChat m => (m.ticketId, ())
  | .deregObserverGlobalChat m => (m.ticketId, ())
  | .userLoggedIn m => (m.userId, m.name, ())
  | .userLoggedOut m => (m.userId, ())
  | .regObserverUserLogin m => (m.sendAll, m.ticketId, ())
  | .deregObserverUserLogin m => (m.ticketId, ())
  | .resultId m => (m.errorCode, m.errorMessage, m.id, m.ticketId, ())
  | .chat m => (m.text, m.fromId, ())
  | .addGameServer m =>
    (m.name, m.description, m.port, m.serverType, m.lobbyId, m.version, m.maxPlayers, m.aiPlayers,
      m.level, m.gameMode, m.hardcore, m.map, m.automaticJoin, m.data, m.ticketId, ())
  | .removeServer m => (m.serverId, m.running, m.ticketId, ())
  | .gameServerData m =>
    (m.serverId, m.name, m.ownerId, m.description, m.ip, m.port, m.serverType, m.lobbyId,
      m.version, m.maxPlayers, m.currPlayers, m.aiPlayers, m.level, m.gameMode, m.hardcore, m.map,
      m.running, m.data, m.ticketId, ())
  | .regObserverServerList m => (m.sendAll, m.serverType, m.roomId, m.selection, m.ticketId, ())
  | .deregObserverServerList m => (m.ticketId, ())
  | .joinServer m => (m.unused, m.serverId, m.ticketId, ())
  | .leaveServer m => (m.unused, m.ticketId, ())
  | .changeGameServer m =>
    (m.serverId, m.name, m.description, m.maxPlayers, m.slotsOccupied, m.level, m.gameMode,
      m.hardcore, m.map, m.running, m.data, m.propertyMask, m.ticketId, ())

/-- The message of a type with the given fields. -/
def ofRecord : (t : MessageType) → Record t.fields → Message
  | .chatMessage, (mode, text, ticketId, ()) => .chatMessage ⟨mode, text, ticketId⟩
  | .requestLogin, (nickname, password, cdkey, keypool, patchlevel, ticketId, ()) =>
    .requestLogin ⟨nickname, password, cdkey, keypool, patchlevel, ticketId⟩
  | .resultMessage, (errorCode, errorMessage, ticketId, ()) =>
    .resultMessage ⟨errorCode, errorMessage, ticketId⟩
  | .requestCreateAccount, (nickname, password, cdkey, keypool, patchlevel, ticketId, ()) =>
    .requestCreateAccount ⟨nickname, password, cdkey, keypool, patchlevel, ticketId⟩
  | .requestMotd, (ticketId, ()) => .requestMotd ⟨ticketId⟩
  | .motd, (text, ticketId, ()) => .motd ⟨text, ticketId⟩
  | .regObserverGlobalChat, (ticketId, ()) => .regObserverGlobalChat ⟨ticketId⟩
  | .deregObserverGlobalChat, (ticketId, ()) => .deregObserverGlobalChat ⟨ticketId⟩
  | .userLoggedIn, (userId, name, ()) => .userLoggedIn ⟨userId, name⟩
  | .userLoggedOut, (userId, ()) => .userLoggedOut ⟨userId⟩
  | .regObserverUserLogin, (sendAll, ticketId, ()) => .regObserverUserLogin ⟨sendAll, ticketId⟩
  | .deregObserverUserLogin, (ticketId, ()) => .deregObserverUserLogin ⟨ticketId⟩
  | .resultId, (errorCode, errorMessage, id, ticketId, ()) =>
    .resultId ⟨errorCode, errorMessage, id, ticketId⟩
  | .chat, (text, fromId, ()) => .chat ⟨text, fromId⟩
  | .addGameServer, (name, description, port, serverType, lobbyId, version, maxPlayers, aiPlayers,
      level, gameMode, hardcore, map, automaticJoin, data, ticketId, ()) =>
    .addGameServer ⟨name, description, port, serverType, lobbyId, version, maxPlayers, aiPlayers,
      level, gameMode, hardcore, map, automaticJoin, data, ticketId⟩
  | .removeServer, (serverId, running, ticketId, ()) =>
    .removeServer ⟨serverId, running, ticketId⟩
  | .gameServerData, (serverId, name, ownerId, description, ip, port, serverType, lobbyId,
      version, maxPlayers, currPlayers, aiPlayers, level, gameMode, hardcore, map, running, data,
      ticketId, ()) =>
    .gameServerData ⟨serverId, name, ownerId, description, ip, port, serverType, lobbyId, version,
      maxPlayers, currPlayers, aiPlayers, level, gameMode, hardcore, map, running, data, ticketId⟩
  | .regObserverServerList, (sendAll, serverType, roomId, selection, ticketId, ()) =>
    .regObserverServerList ⟨sendAll, serverType, roomId, selection, ticketId⟩
  | .deregObserverServerList, (ticketId, ()) => .deregObserverServerList ⟨ticketId⟩
  | .joinServer, (unused, serverId, ticketId, ()) => .joinServer ⟨unused, serverId, ticketId⟩
  | .leaveServer, (unused, ticketId, ()) => .leaveServer ⟨unused, ticketId⟩
  | .changeGameServer, (serverId, name, description, maxPlayers, slotsOccupied, level, gameMode,
      hardcore, map, running, data, propertyMask, ticketId, ()) =>
    .changeGameServer ⟨serverId, name, description, maxPlayers, slotsOccupied, level, gameMode,
      hardcore, map, running, data, propertyMask, ticketId⟩

@[simp] theorem ofRecord_record (m : Message) : ofRecord m.type m.record = m := by
  cases m <;> rfl

@[simp] theorem type_ofRecord (t : MessageType) (r : Record t.fields) : (ofRecord t r).type = t := by
  cases t <;> rfl

/-! ## Bodies -/

/-- The values of a message body: the code of the type, then the fields. -/
def values (m : Message) : List Value :=
  .u16 m.type.code :: m.record.values

/-- The message of a type with the given body values. The count is checked first; the code in front
has to be a `u16`, whatever its number. -/
def ofValues (t : MessageType) (values : List Value) : Except SchemaError Message :=
  if values.length = t.schema.length then
    match values with
    | .u16 _ :: values => ofRecord t <$> Record.ofFields t.fields values
    | v :: _ => .error (.typeMismatch MessageType.echo v.type)
    | [] => .error (.fieldCount t.schema.length 0)
  else .error (.fieldCount t.schema.length values.length)

/-- The bytes of a message body. -/
def body (m : Message) : Bytes :=
  m.values.flatMap Value.encode

end Message

end GameLobby
