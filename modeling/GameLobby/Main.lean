import GameLobby.Server

/-!
# The command line

`gamelobby [config.json]` holds the lobby for one client, whose connection is standard input and
output, as a socket-activated service does. Without a file the default configuration is used.
-/

namespace GameLobby.Main

/-- The contents of a file, if it can be read. -/
def contents (path : String) : IO (Option Bytes) := do
  try
    return some (← IO.FS.readBinFile path).toList
  catch _ =>
    return none

/-- The configuration that the arguments name. -/
def configOf : List String → IO (Except ConfigError Config)
  | [] => return Config.default.check
  | path :: _ => return Config.ofFile (← contents path)

/-- What the operator is told about a configuration that cannot be used. -/
def complaint : ConfigError → String
  | .unreadable => "the configuration cannot be read"
  | .malformed => "invalid config: not a document of settings"
  | .invalid fault => fault.message

/-- The address of both ends of standard input and output. -/
def loopback : IpAddress := .v4 127 0 0 1

/-- The client on standard input and output. -/
def client : ConnectionId := ⟨1⟩

/-- Hands out what the client is sent, and says whether the connection is still open. -/
def deliver (out : IO.FS.Stream) (report : Report) : IO Bool := do
  for (_, b) in report.received do
    out.write ⟨b.toArray⟩
  out.flush
  return report.shut = [] && report.ended = []

/-- Passes bytes on to the lobby until the connection is closed. -/
partial def serve (rules : Rules) (input out : IO.FS.Stream) (lobby : Lobby) : IO Unit := do
  let b ← input.read 4096
  let i := if b.isEmpty then Input.ending client .finished else .bytes client [b.toList]
  match lobby.step rules i with
  | none => return ()
  | some (report, lobby) =>
    if ← deliver out report then
      unless b.isEmpty do serve rules input out lobby

end GameLobby.Main

open GameLobby GameLobby.Main in
/-- Serves one client under the configuration that the arguments name. -/
def main (args : List String) : IO UInt32 := do
  match ← configOf args with
  | .error e =>
    (← IO.getStderr).putStrLn ("lobby server stopped: " ++ complaint e)
    return 1
  | .ok config =>
    let rules : Rules := ⟨config, .admitAll, .wordSum⟩
    match Lobby.opened.step rules (.connect ⟨client, loopback, loopback⟩) with
    | none => return 1
    | some (_, lobby) =>
      serve rules (← IO.getStdin) (← IO.getStdout) lobby
      return 0
