import GameLobby.Message.Basic
import GameLobby.Text.Hexadecimal

/-!
# Result codes

The one-byte code in the answer to a request. Zero is success.
-/

namespace GameLobby

/-- The code in an answer. -/
structure ResultCode where
  value : UInt8
  deriving DecidableEq, Repr

namespace ResultCode

/-- The request was carried out. -/
def ok : ResultCode := ⟨0x00⟩

/-- It failed for a reason without a code of its own. -/
def failure : ResultCode := ⟨0x01⟩

/-- The sender is not logged in, or has no room. -/
def noSession : ResultCode := ⟨0x03⟩

/-- The CD key of a new account is not valid. -/
def invalidKeyAtCreation : ResultCode := ⟨0x1A⟩

/-- The CD key at a login is not valid. -/
def invalidKeyAtLogin : ResultCode := ⟨0x1B⟩

/-- The name of a new account is taken. -/
def userExists : ResultCode := ⟨0x29⟩

/-- Name and password do not fit. -/
def authenticationFailed : ResultCode := ⟨0x3D⟩

/-- The client has another patch level. -/
def wrongVersion : ResultCode := ⟨0x3E⟩

/-- There is no such room. -/
def roomNotFound : ResultCode := ⟨0x84⟩

/-- The room has no free seat. -/
def roomFull : ResultCode := ⟨0x87⟩

/-- Whether a code is success. -/
def isOk (c : ResultCode) : Bool := c == ok

instance : ToString ResultCode := ⟨fun c => Text.hex 2 c.value.toNat⟩

end ResultCode

/-- The answer with a code and a text. -/
def ResultMessage.withCode (code : ResultCode) (text : RawText) (ticketId : UInt32) :
    ResultMessage :=
  ⟨code.value, text, ticketId⟩

/-- The answer that a request was carried out. -/
def ResultMessage.ok (ticketId : UInt32) : ResultMessage :=
  .withCode .ok [] ticketId

/-- The answer that something was created under a number. -/
def ResultId.ok (id : UInt32) (ticketId : UInt32) : ResultId :=
  ⟨ResultCode.ok.value, [], id, ticketId⟩

end GameLobby
