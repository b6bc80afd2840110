import GameLobby.Message.Contents
import GameLobby.Registry.Room

/-!
# Snapshots of rooms

The message that tells observers all about a room.
-/

namespace GameLobby

/-- What a room with these settings would show, before it has guests or runs. -/
def RoomSettings.snapshot (s : RoomSettings) (id : RoomId) (owner : UserId) (ticketId : UInt32) :
    GameServerData where
  serverId := id.number
  name := s.name
  ownerId := owner.number
  description := s.description
  ip := s.ip
  port := s.port
  serverType := s.serverType
  lobbyId := s.lobbyId
  version := s.version
  maxPlayers := s.maxPlayers
  currPlayers := 1
  aiPlayers := s.aiPlayers
  level := s.level
  gameMode := s.gameMode
  hardcore := s.hardcore
  map := s.map
  running := false
  data := s.data
  ticketId := ticketId

/-- What a room shows. More than 255 players show as 255. -/
def Room.snapshot (r : Room) (ticketId : UInt32) : GameServerData :=
  { r.settings.snapshot r.id r.ownerUid ticketId with
    currPlayers := UInt8.ofNat (min r.headcount 255)
    running := r.running }

end GameLobby
