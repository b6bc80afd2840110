import GameLobby.Lobby

/-!
# Servers

A server is a lobby behind a listening socket. Opening one checks the configuration and binds the
address; every connection accepted then gets the next number, from 1 on. What the machine's network
allows is a parameter, `Network`.
-/

namespace GameLobby

/-- What the network of a machine allows. -/
structure Network where
  /-- Whether an address is one of the machine's own. -/
  isOwn : IpAddress → Bool
  /-- Whether clients reach a listening socket. -/
  reachable : Bool

namespace Network

/-- The addresses that every machine has: all interfaces, and the loopback ones. -/
def isLocal : IpAddress → Bool
  | .v4 a b c d => a = 127 || (a = 0 && b = 0 && c = 0 && d = 0)
  | .v6 groups _ => groups = List.replicate 8 0 || groups = List.replicate 7 0 ++ [1]

/-- A machine whose loopback clients can use. -/
def loopback : Network := ⟨isLocal, true⟩

/-- A machine on which sockets can be bound and no client gets through. -/
def isolated : Network := ⟨isLocal, false⟩

end Network

/-- Why a server cannot do its work. -/
inductive ServerError where
  | config (e : ConfigError)
  /-- The address cannot be bound. -/
  | acceptFailed
  /-- A client does not get through. -/
  | unreachable
  /-- No outbox of the chosen capacity can be made. -/
  | capacity
  deriving DecidableEq, Repr

/-- A lobby that accepts connections. -/
structure Server where
  network : Network
  rules : Rules
  lobby : Lobby
  /-- How many connections were accepted. -/
  accepted : UInt64

namespace Server

/-- A server that listens. The configuration is checked before the address is bound. -/
def listen (network : Network) (rules : Rules) : Except ServerError Server :=
  match rules.config.check with
  | .error e => .error (.config e)
  | .ok config =>
    match SocketAddress.ofString? config.bind with
    | none => .error .acceptFailed
    | some address =>
      if network.isOwn address.ip then .ok ⟨network, rules, .opened, 0⟩ else .error .acceptFailed

/-- What an input causes. -/
def step (s : Server) (i : Input) : Except ServerError (Report × Server) :=
  match s.lobby.step s.rules i with
  | none => .error .capacity
  | some (report, lobby) => .ok (report, { s with lobby })

/-- A client gets through from `peer` to `host`, and its connection has the next number. -/
def accept (s : Server) (peer host : IpAddress) :
    Except ServerError (ConnectionId × Server) :=
  if s.network.reachable then
    let conn : ConnectionId := ⟨s.accepted + 1⟩
    match { s with accepted := conn.number }.step (.connect ⟨conn, peer, host⟩) with
    | .error e => .error e
    | .ok (_, s) => .ok (conn, s)
  else .error .unreachable

end Server

end GameLobby
