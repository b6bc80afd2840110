import GameLobby.Message.Type

/-!
# Contents of messages

One structure for each type of message, with the fields of the type in wire order. Every request
carries a ticket that the answer repeats.
-/

namespace GameLobby

/-- A chat line that a client sends. -/
structure ChatMessage where
  mode : UInt32
  text : RawText
  ticketId : UInt32
  deriving DecidableEq, Repr

/-- A login with an account that exists. -/
structure RequestLogin where
  nickname : RawText
  password : RawText
  cdkey : Bytes
  keypool : UInt16
  patchlevel : UInt32
  ticketId : UInt32
  deriving DecidableEq, Repr

/-- The outcome of a request. -/
structure ResultMessage where
  errorCode : UInt8
  errorMessage : RawText
  ticketId : UInt32
  deriving DecidableEq, Repr

/-- A new account and a login with it. -/
structure RequestCreateAccount where
  nickname : RawText
  password : RawText
  cdkey : Bytes
  keypool : UInt16
  patchlevel : UInt32
  ticketId : UInt32
  deriving DecidableEq, Repr

/-- A request for the message of the day. -/
structure RequestMotd where
  ticketId : UInt32
  deriving DecidableEq, Repr

/-- The message of the day. -/
structure Motd where
  text : RawText
  ticketId : UInt32
  deriving DecidableEq, Repr

/-- A subscription to chat lines. -/
structure RegObserverGlobalChat where
  ticketId : UInt32
  deriving DecidableEq, Repr

/-- The end of a subscription to chat lines. -/
structure DeregObserverGlobalChat where
  ticketId : UInt32
  deriving DecidableEq, Repr

/-- The notice that a user logged in. -/
structure UserLoggedIn where
  userId : UInt32
  name : RawText
  deriving DecidableEq, Repr

/-- The notice that a user left. -/
structure UserLoggedOut where
  userId : UInt32
  deriving DecidableEq, Repr

/-- A subscription to logins and logouts. -/
structure RegObserverUserLogin where
  sendAll : Bool
  ticketId : UInt32
  deriving DecidableEq, Repr

/-- The end of a subscription to logins and logouts. -/
structure DeregObserverUserLogin where
  ticketId : UInt32
  deriving DecidableEq, Repr

/-- The outcome of a request that creates something, with its number. -/
structure ResultId where
  errorCode : UInt8
  errorMessage : RawText
  id : UInt32
  ticketId : UInt32
  deriving DecidableEq, Repr

/-- A chat line as subscribers get it. Sender 0 is the lobby itself. -/
structure Chat where
  text : RawText
  fromId : UInt32
  deriving DecidableEq, Repr

/-- A room that a client offers. -/
structure AddGameServer where
  name : RawText
  description : RawText
  port : UInt32
  serverType : UInt8
  lobbyId : UInt32
  version : RawText
  maxPlayers : UInt8
  aiPlayers : UInt8
  level : UInt8
  gameMode : UInt8
  hardcore : Bool
  map : RawText
  automaticJoin : Bool
  data : Bytes
  ticketId : UInt32
  deriving DecidableEq, Repr

/-- The end of a room, by closing it or by starting its game. Clients send it as a request and
observers get it as a notice. -/
structure RemoveServer where
  serverId : UInt32
  running : Bool
  ticketId : UInt32
  deriving DecidableEq, Repr

/-- All that observers learn about a room. -/
structure GameServerData where
  serverId : UInt32
  name : RawText
  ownerId : UInt32
  description : RawText
  ip : RawText
  port : UInt32
  serverType : UInt8
  lobbyId : UInt32
  version : RawText
  maxPlayers : UInt8
  currPlayers : UInt8
  aiPlayers : UInt8
  level : UInt8
  gameMode : UInt8
  hardcore : Bool
  map : RawText
  running : Bool
  data : Bytes
  ticketId : UInt32
  deriving DecidableEq, Repr

/-- A subscription to rooms. -/
structure RegObserverServerList where
  sendAll : Bool
  serverType : UInt8
  roomId : UInt32
  selection : UInt32
  ticketId : UInt32
  deriving DecidableEq, Repr

/-- The end of a subscription to rooms. -/
structure DeregObserverServerList where
  ticketId : UInt32
  deriving DecidableEq, Repr

/-- A seat taken in somebody's room. -/
structure JoinServer where
  unused : UInt32
  serverId : UInt32
  ticketId : UInt32
  deriving DecidableEq, Repr

/-- A seat given up. -/
structure LeaveServer where
  unused : UInt32
  ticketId : UInt32
  deriving DecidableEq, Repr

/-- New settings for the sender's room. -/
structure ChangeGameServer where
  serverId : UInt32
  name : RawText
  description : RawText
  maxPlayers : UInt8
  slotsOccupied : UInt8
  level : UInt8
  gameMode : UInt8
  hardcore : Bool
  map : RawText
  running : Bool
  data : Bytes
  propertyMask : UInt32
  ticketId : UInt32
  deriving DecidableEq, Repr

end GameLobby
