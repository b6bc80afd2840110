import GameLobby.Config.Template
import GameLobby.Json.Reader
import GameLobby.Net.Address
import GameLobby.Wire.Field

/-!
# Configuration

What the operator of a lobby can choose. A configuration is read from a JSON document: an object
whose members are the settings to change, each at most once, or an array of settings in order, the
rest of which keep their defaults. `Config.check` finds the first fault of a configuration.
-/

namespace GameLobby

/-- The settings of a lobby. -/
structure Config where
  /-- The socket address to listen on. -/
  bind : String
  /-- The patch level that clients have to have. -/
  patchlevel : UInt32
  /-- The port of rooms that are reached at their owner's address. -/
  defaultGamePort : UInt32
  /-- The port that a client sends when it could not make itself reachable. -/
  bridgeErrorPort : UInt32
  /-- The message of the day, a template for the user's name. -/
  motd : String
  /-- Whether logins and logouts are also told as chat lines. -/
  announceLogins : Bool
  /-- Whether the checksum of a handshake has to be right. -/
  verifyHandshakeChecksum : Bool
  /-- How many frames can wait for a connection. -/
  outboxCapacity : Nat
  /-- Seconds between two lines of statistics; 0 for none. -/
  statsIntervalSecs : Nat
  deriving DecidableEq, Repr

/-- What is wrong with a configuration. -/
inductive ConfigFault where
  /-- The address to listen on is none. -/
  | bind (address : String)
  /-- There is no place for a frame. -/
  | capacity
  /-- The two special ports are the same. -/
  | ports (port : UInt32)
  deriving DecidableEq, Repr

/-- What a fault says. -/
def ConfigFault.message : ConfigFault → String
  | .bind address => "invalid config: bind `" ++ address ++ "` is not a socket address"
  | .capacity => "invalid config: outbox_capacity must be at least 1"
  | .ports port =>
    "invalid config: default_game_port and bridge_error_port are both " ++ toString port

/-- Why there is no configuration. -/
inductive ConfigError where
  /-- The file cannot be read as text. -/
  | unreadable
  /-- The text is no document of settings. -/
  | malformed
  | invalid (fault : ConfigFault)
  deriving DecidableEq, Repr

namespace Config

/-- The message of the day unless the operator chooses another. -/
def defaultMotd : String :=
  "Welcome to The Settlers II: 10th anniversary! \n--- you are logged in as {name} --- \n\n" ++
    "S2 online lobby\nv0.2-alpha"

/-- The settings of an operator who chooses nothing. -/
def default : Config where
  bind := "0.0.0.0:6800"
  patchlevel := 11757
  defaultGamePort := 5479
  bridgeErrorPort := 9999
  motd := defaultMotd
  announceLogins := true
  verifyHandshakeChecksum := true
  outboxCapacity := 256
  statsIntervalSecs := 10

/-! ## Faults -/

/-- The first fault of a configuration. -/
def fault? (c : Config) : Option ConfigFault :=
  if (SocketAddress.ofString? c.bind).isNone then some (.bind c.bind)
  else if c.outboxCapacity = 0 then some .capacity
  else if c.defaultGamePort = c.bridgeErrorPort then some (.ports c.bridgeErrorPort)
  else none

/-- A configuration without faults. -/
def check (c : Config) : Except ConfigError Config :=
  match c.fault? with
  | some fault => .error (.invalid fault)
  | none => .ok c

/-! ## Reading -/

/-- A setting: its name, and how a JSON value changes it. -/
structure Setting where
  name : String
  set : Config → Json → Option Config

/-- The value as a number of 32 bits. -/
def word? (j : Json) : Option UInt32 :=
  (j.natural?.filter (· < UInt32.size)).map UInt32.ofNat

/-- The value as a number below 2^64. -/
def long? (j : Json) : Option Nat :=
  j.natural?.filter (· < UInt64.size)

/-- The settings in order. -/
def settings : List Setting :=
  [⟨"bind", fun c j => j.string?.map fun v => { c with bind := v }⟩,
    ⟨"patchlevel", fun c j => (word? j).map fun v => { c with patchlevel := v }⟩,
    ⟨"default_game_port", fun c j => (word? j).map fun v => { c with defaultGamePort := v }⟩,
    ⟨"bridge_error_port", fun c j => (word? j).map fun v => { c with bridgeErrorPort := v }⟩,
    ⟨"motd", fun c j => j.string?.map fun v => { c with motd := v }⟩,
    ⟨"announce_logins", fun c j => j.bool?.map fun v => { c with announceLogins := v }⟩,
    ⟨"verify_handshake_checksum",
      fun c j => j.bool?.map fun v => { c with verifyHandshakeChecksum := v }⟩,
    ⟨"outbox_capacity", fun c j => (long? j).map fun v => { c with outboxCapacity := v }⟩,
    ⟨"stats_interval_secs", fun c j => (long? j).map fun v => { c with statsIntervalSecs := v }⟩]

/-- A configuration changed by the members of an object, of which none may name a setting in `seen`
or one named before. -/
def setMembers (seen : List String) (c : Config) : List (String × Json) → Option Config
  | [] => some c
  | (name, j) :: members =>
    if name ∈ seen then none
    else
      match settings.find? (·.name == name) with
      | none => none
      | some setting => (setting.set c j).bind fun c => setMembers (name :: seen) c members

/-- A configuration changed by values for the settings in order. -/
def setItems (c : Config) : List Setting → List Json → Option Config
  | _, [] => some c
  | [], _ :: _ => none
  | setting :: settings, j :: items => (setting.set c j).bind fun c => setItems c settings items

/-- The settings in a JSON value, the others being the default ones. -/
def ofJson? : Json → Option Config
  | .object members => setMembers [] default members
  | .array items => setItems default settings items
  | _ => none

/-- The configuration in a JSON value, if it has no fault. -/
def ofJson (j : Json) : Except ConfigError Config :=
  match ofJson? j with
  | none => .error .malformed
  | some c => c.check

/-- The configuration in a document. -/
def ofText (text : String) : Except ConfigError Config :=
  match Json.ofString? text with
  | none => .error .malformed
  | some j => ofJson j

/-- The configuration in a file, if there is one. -/
def ofFile (contents : Option Bytes) : Except ConfigError Config :=
  match contents.bind Text.ofUtf8? with
  | none => .error .unreadable
  | some text => ofText text

/-! ## The message of the day -/

/-- The message of the day for a user. The name is put in byte for byte. -/
def motdText (c : Config) (name : RawText) : RawText :=
  Template.fill (Text.utf8 c.motd) name

end Config

end GameLobby
