import GameLobby.Message.Basic
import GameLobby.Text.Hexadecimal

/-!
# Payloads

An application frame carries one message: a magic number, the code of the message's type, and the
message's body. Reading goes in the same order, and the first fault is reported.
-/

namespace GameLobby

open Wire

/-- Why a payload holds no message. -/
inductive PayloadError where
  /-- The payload is shorter than what it has to hold. -/
  | schema (e : SchemaError)
  /-- It starts with another number. -/
  | badMagic (magic : UInt16)
  /-- No message type has this code. -/
  | unknownType (code : UInt16)
  deriving DecidableEq, Repr

/-- What an error says. -/
def PayloadError.message : PayloadError → String
  | .schema e => e.message
  | .badMagic magic => "invalid envelope magic " ++ Text.hex 4 magic.toNat
  | .unknownType code => "unknown message type " ++ toString code

namespace Payload

/-- The number every payload starts with. -/
def magic : UInt16 := 0x27D8

/-- The field of that number. -/
def magicField : Field := ⟨"magic", .u16⟩

/-- The field of the type's code. -/
def codeField : Field := ⟨"type", .u16⟩

/-- The type code and the body of a payload. -/
def split (payload : Bytes) : Except PayloadError (UInt16 × Bytes) :=
  match Bytes.readUInt16 payload with
  | none => .error (.schema (.truncated magicField))
  | some (start, rest) =>
    match Bytes.readUInt16 rest with
    | none => .error (.schema (.truncated codeField))
    | some (code, body) => if start = magic then .ok (code, body) else .error (.badMagic start)

/-- The type with a code. -/
def typeOf (code : UInt16) : Except PayloadError MessageType :=
  match MessageType.ofCode? code with
  | none => .error (.unknownType code)
  | some t => .ok t

end Payload

namespace Message

/-- The payload that carries a message. -/
def payload (m : Message) : Bytes :=
  Bytes.ofUInt16 Payload.magic ++ Bytes.ofUInt16 m.type.code ++ m.body

end Message

/-- A message as it came in, with the code that its body repeats. Nobody relies on that code. -/
structure Received where
  echo : UInt16
  message : Message
  deriving DecidableEq, Repr

namespace Received

/-- The message of a type at the front of a body. What follows it is ignored. -/
def ofBody (t : MessageType) (body : Bytes) : Except SchemaError Received :=
  match Bytes.readUInt16 body with
  | none => .error (.truncated MessageType.echo)
  | some (echo, rest) =>
    match t.fields.decode rest with
    | .error e => .error e
    | .ok (values, _) =>
      match Record.ofFields t.fields values with
      | .error e => .error e
      | .ok record => .ok ⟨echo, .ofRecord t record⟩

/-- The message that a payload carries. -/
def ofPayload (payload : Bytes) : Except PayloadError Received :=
  match Payload.split payload with
  | .error e => .error e
  | .ok (code, body) =>
    match Payload.typeOf code with
    | .error e => .error e
    | .ok t =>
      match ofBody t body with
      | .error e => .error (.schema e)
      | .ok received => .ok received

end Received

end GameLobby
