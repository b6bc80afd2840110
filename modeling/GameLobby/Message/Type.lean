import GameLobby.Wire.Record

/-!
# Message types

The table of application messages: the code, the name and the fields of each type. The codes are
distinct, so a code names one type (`ofCode?_code`). The body of every message repeats the code in
front of the fields, which `MessageType.schema` puts first.
-/

namespace GameLobby

open Wire

/-- The types of application messages, in table order. -/
inductive MessageType where
  | chatMessage
  | requestLogin
  | resultMessage
  | requestCreateAccount
  | requestMotd
  | motd
  | regObserverGlobalChat
  | deregObserverGlobalChat
  | userLoggedIn
  | userLoggedOut
  | regObserverUserLogin
  | deregObserverUserLogin
  | resultId
  | chat
  | addGameServer
  | removeServer
  | gameServerData
  | regObserverServerList
  | deregObserverServerList
  | joinServer
  | leaveServer
  | changeGameServer
  deriving DecidableEq, Repr, Inhabited

namespace MessageType

/-- Every type, in table order. -/
def all : List MessageType :=
  [.chatMessage, .requestLogin, .resultMessage, .requestCreateAccount, .requestMotd, .motd,
    .regObserverGlobalChat, .deregObserverGlobalChat, .userLoggedIn, .userLoggedOut,
    .regObserverUserLogin, .deregObserverUserLogin, .resultId, .chat, .addGameServer,
    .removeServer, .gameServerData, .regObserverServerList, .deregObserverServerList, .joinServer,
    .leaveServer, .changeGameServer]

/-- The code of a type on the wire. -/
def code : MessageType → UInt16
  | .chatMessage => 2
  | .requestLogin => 4
  | .resultMessage => 42
  | .requestCreateAccount => 71
  | .requestMotd => 105
  | .motd => 106
  | .regObserverGlobalChat => 107
  | .deregObserverGlobalChat => 108
  | .userLoggedIn => 109
  | .userLoggedOut => 110
  | .regObserverUserLogin => 115
  | .deregObserverUserLogin => 116
  | .resultId => 153
  | .chat => 165
  | .addGameServer => 168
  | .removeServer => 169
  | .gameServerData => 170
  | .regObserverServerList => 171
  | .deregObserverServerList => 172
  | .joinServer => 175
  | .leaveServer => 176
  | .changeGameServer => 177

/-- The name of a type. -/
def name : MessageType → String
  | .chatMessage => "ChatMessage"
  | .requestLogin => "RequestLogin"
  | .resultMessage => "ResultMessage"
  | .requestCreateAccount => "RequestCreateAccount"
  | .requestMotd => "RequestMotd"
  | .motd => "Motd"
  | .regObserverGlobalChat => "RegObserverGlobalChat"
  | .deregObserverGlobalChat => "DeregObserverGlobalChat"
  | .userLoggedIn => "UserLoggedIn"
  | .userLoggedOut => "UserLoggedOut"
  | .regObserverUserLogin => "RegObserverUserLogin"
  | .deregObserverUserLogin => "DeregObserverUserLogin"
  | .resultId => "ResultId"
  | .chat => "Chat"
  | .addGameServer => "AddGameServer"
  | .removeServer => "RemoveServer"
  | .gameServerData => "GameServerData"
  | .regObserverServerList => "RegObserverServerList"
  | .deregObserverServerList => "DeregObserverServerList"
  | .joinServer => "JoinServer"
  | .leaveServer => "LeaveServer"
  | .changeGameServer => "ChangeGameServer"

/-- The fields of a type, without the code in front of them. -/
def fields : MessageType → Schema
  | .chatMessage => [⟨"mode", .u32⟩, ⟨"text", .string⟩, ⟨"ticket_id", .u32⟩]
  | .requestLogin =>
    [⟨"nickname", .string⟩, ⟨"password", .string⟩, ⟨"cdkey", .bytes⟩, ⟨"keypool", .u16⟩,
      ⟨"patchlevel", .u32⟩, ⟨"ticket_id", .u32⟩]
  | .resultMessage => [⟨"error_code", .u8⟩, ⟨"error_msg", .string⟩, ⟨"ticket_id", .u32⟩]
  | .requestCreateAccount =>
    [⟨"nickname", .string⟩, ⟨"password", .string⟩, ⟨"cdkey", .bytes⟩, ⟨"keypool", .u16⟩,
      ⟨"patchlevel", .u32⟩, ⟨"ticket_id", .u32⟩]
  | .requestMotd => [⟨"ticket_id", .u32⟩]
  | .motd => [⟨"text", .string⟩, ⟨"ticket_id", .u32⟩]
  | .regObserverGlobalChat => [⟨"ticket_id", .u32⟩]
  | .deregObserverGlobalChat => [⟨"ticket_id", .u32⟩]
  | .userLoggedIn => [⟨"user_id", .u32⟩, ⟨"name", .string⟩]
  | .userLoggedOut => [⟨"user_id", .u32⟩]
  | .regObserverUserLogin => [⟨"send_all", .bool⟩, ⟨"ticket_id", .u32⟩]
  | .deregObserverUserLogin => [⟨"ticket_id", .u32⟩]
  | .resultId => [⟨"error_code", .u8⟩, ⟨"error_msg", .string⟩, ⟨"id", .u32⟩, ⟨"ticket_id", .u32⟩]
  | .chat => [⟨"text", .string⟩, ⟨"from_id", .u32⟩]
  | .addGameServer =>
    [⟨"name", .string⟩, ⟨"description", .string⟩, ⟨"port", .u32⟩, ⟨"server_type", .u8⟩,
      ⟨"lobby_id", .u32⟩, ⟨"version", .string⟩, ⟨"max_players", .u8⟩, ⟨"ai_players", .u8⟩,
      ⟨"level", .u8⟩, ⟨"game_mode", .u8⟩, ⟨"hardcore", .bool⟩, ⟨"map", .string⟩,
      ⟨"automatic_join", .bool⟩, ⟨"data", .bytes⟩, ⟨"ticket_id", .u32⟩]
  | .removeServer => [⟨"server_id", .u32⟩, ⟨"running", .bool⟩, ⟨"ticket_id", .u32⟩]
  | .gameServerData =>
    [⟨"server_id", .u32⟩, ⟨"name", .string⟩, ⟨"owner_id", .u32⟩, ⟨"description", .string⟩,
      ⟨"ip", .string⟩, ⟨"port", .u32⟩, ⟨"server_type", .u8⟩, ⟨"lobby_id", .u32⟩,
      ⟨"version", .string⟩, ⟨"max_players", .u8⟩, ⟨"curr_players", .u8⟩, ⟨"ai_players", .u8⟩,
      ⟨"level", .u8⟩, ⟨"game_mode", .u8⟩, ⟨"hardcore", .bool⟩, ⟨"map", .string⟩,
      ⟨"running", .bool⟩, ⟨"data", .bytes⟩, ⟨"ticket_id", .u32⟩]
  | .regObserverServerList =>
    [⟨"send_all", .bool⟩, ⟨"server_type", .u8⟩, ⟨"room_id", .u32⟩, ⟨"selection", .u32⟩,
      ⟨"ticket_id", .u32⟩]
  | .deregObserverServerList => [⟨"ticket_id", .u32⟩]
  | .joinServer => [⟨"unused", .u32⟩, ⟨"server_id", .u32⟩, ⟨"ticket_id", .u32⟩]
  | .leaveServer => [⟨"unused", .u32⟩, ⟨"ticket_id", .u32⟩]
  | .changeGameServer =>
    [⟨"server_id", .u32⟩, ⟨"name", .string⟩, ⟨"description", .string⟩, ⟨"max_players", .u8⟩,
      ⟨"slots_occupied", .u8⟩, ⟨"level", .u8⟩, ⟨"game_mode", .u8⟩, ⟨"hardcore", .bool⟩,
      ⟨"map", .string⟩, ⟨"running", .bool⟩, ⟨"data", .bytes⟩, ⟨"property_mask", .u32⟩,
      ⟨"ticket_id", .u32⟩]

/-- The field that repeats the code. -/
def echo : Field := ⟨"type", .u16⟩

/-- The fields of a message body: the code and the fields of the type. -/
def schema (t : MessageType) : Schema :=
  echo :: t.fields

/-- The type with a code. -/
def ofCode? (code : UInt16) : Option MessageType :=
  all.find? fun t => t.code == code

@[simp] theorem ofCode?_code (t : MessageType) : ofCode? t.code = some t := by
  cases t <;> decide

end MessageType

end GameLobby
