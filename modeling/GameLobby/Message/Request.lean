import GameLobby.Message.Basic

/-!
# Requests

The messages that clients may send. Each has a ticket, which the answer repeats.
-/

namespace GameLobby

/-- A message that a client may send. -/
inductive Request where
  | chat (r : ChatMessage)
  | login (r : RequestLogin)
  | newAccount (r : RequestCreateAccount)
  | motd (r : RequestMotd)
  | watchChat (r : RegObserverGlobalChat)
  | unwatchChat (r : DeregObserverGlobalChat)
  | watchLogins (r : RegObserverUserLogin)
  | unwatchLogins (r : DeregObserverUserLogin)
  | watchRooms (r : RegObserverServerList)
  | unwatchRooms (r : DeregObserverServerList)
  | openRoom (r : AddGameServer)
  | closeRoom (r : RemoveServer)
  | changeRoom (r : ChangeGameServer)
  | joinRoom (r : JoinServer)
  | leaveRoom (r : LeaveServer)
  deriving DecidableEq, Repr

/-- The ticket of a request. -/
def Request.ticketId : Request → UInt32
  | .chat r => r.ticketId
  | .login r => r.ticketId
  | .newAccount r => r.ticketId
  | .motd r => r.ticketId
  | .watchChat r => r.ticketId
  | .unwatchChat r => r.ticketId
  | .watchLogins r => r.ticketId
  | .unwatchLogins r => r.ticketId
  | .watchRooms r => r.ticketId
  | .unwatchRooms r => r.ticketId
  | .openRoom r => r.ticketId
  | .closeRoom r => r.ticketId
  | .changeRoom r => r.ticketId
  | .joinRoom r => r.ticketId
  | .leaveRoom r => r.ticketId

/-- The request that a message is, if clients may send it. -/
def Message.request? : Message → Option Request
  | .chatMessage m => some (.chat m)
  | .requestLogin m => some (.login m)
  | .requestCreateAccount m => some (.newAccount m)
  | .requestMotd m => some (.motd m)
  | .regObserverGlobalChat m => some (.watchChat m)
  | .deregObserverGlobalChat m => some (.unwatchChat m)
  | .regObserverUserLogin m => some (.watchLogins m)
  | .deregObserverUserLogin m => some (.unwatchLogins m)
  | .regObserverServerList m => some (.watchRooms m)
  | .deregObserverServerList m => some (.unwatchRooms m)
  | .addGameServer m => some (.openRoom m)
  | .removeServer m => some (.closeRoom m)
  | .changeGameServer m => some (.changeRoom m)
  | .joinServer m => some (.joinRoom m)
  | .leaveServer m => some (.leaveRoom m)
  | .resultMessage _ | .motd _ | .userLoggedIn _ | .userLoggedOut _ | .resultId _ | .chat _
  | .gameServerData _ => none

end GameLobby
