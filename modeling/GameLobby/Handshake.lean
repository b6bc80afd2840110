import GameLobby.Text.Utf8

/-!
# Handshakes

The first frame of a connection and the answer to it carry the same record of 52 bytes: two
numbers, a name of 32 bytes, a password of 8 bytes and a third number. A name shorter than its field
ends at its first NUL.
-/

namespace GameLobby

/-- A byte string of a fixed length. -/
structure FixedBytes (n : Nat) where
  bytes : Bytes
  length_eq : bytes.length = n
  deriving DecidableEq, Repr

namespace FixedBytes

@[ext] theorem ext {n : Nat} {a b : FixedBytes n} (h : a.bytes = b.bytes) : a = b := by
  cases a; cases b; cases h; rfl

/-- The first `n` bytes of a byte string that has as many. -/
def ofTake (n : Nat) (b : Bytes) (h : n ≤ b.length) : FixedBytes n :=
  ⟨b.take n, List.length_take_of_le h⟩

/-- A byte string cut to `n` bytes and filled up with NULs to `n + 1`. -/
def padded (n : Nat) (b : Bytes) : FixedBytes (n + 1) where
  bytes := b.take n ++ List.replicate (n + 1 - (b.take n).length) 0
  length_eq := by
    rw [List.length_append, List.length_replicate]
    have := List.length_take_le n b
    omega

end FixedBytes

/-- The record that opens a connection. -/
structure Handshake where
  magic : UInt32
  endpointId : UInt32
  username : FixedBytes 32
  password : FixedBytes 8
  unknown : UInt32
  deriving DecidableEq, Repr

/-- The size of the record in bytes. -/
def Handshake.size : Nat := 52

/-- A handshake of the wrong size. -/
structure HandshakeSizeError where
  actual : Nat
  deriving DecidableEq, Repr

/-- What a size error says. -/
def HandshakeSizeError.message (e : HandshakeSizeError) : String :=
  "handshake payload must be " ++ toString Handshake.size ++ " bytes, got " ++ toString e.actual

namespace Handshake

/-- The number the record starts with. -/
def magicNumber : UInt32 := 0xDABAFBEF

/-- The password in every answer. -/
def answerPassword : FixedBytes 8 := .padded 7 [0x2D]

/-- The handshake that a client sends. Name and password are cut so that a NUL ends them. -/
def ofClient (sourceId : UInt32) (username password : String) : Handshake where
  magic := magicNumber
  endpointId := sourceId
  username := .padded 31 (Text.utf8 username)
  password := .padded 7 (Text.utf8 password)
  unknown := 0

/-- The answer to a handshake: it keeps the number and the name. -/
def reply (h : Handshake) : Handshake where
  magic := magicNumber
  endpointId := h.endpointId
  username := h.username
  password := answerPassword
  unknown := 0

/-- The bytes of a handshake. -/
def encode (h : Handshake) : Bytes :=
  Bytes.ofUInt32 h.magic ++ Bytes.ofUInt32 h.endpointId ++ h.username.bytes ++ h.password.bytes ++
    Bytes.ofUInt32 h.unknown

/-- The handshake with the given bytes, which have to be exactly 52. -/
def decode (b : Bytes) : Except HandshakeSizeError Handshake :=
  if h : b.length = size then
    .ok
      { magic := Bytes.uint32At b 0
        endpointId := Bytes.uint32At b 4
        username := .ofTake 32 (b.drop 8) (by rw [List.length_drop, h]; decide)
        password := .ofTake 8 (b.drop 40) (by rw [List.length_drop, h]; decide)
        unknown := Bytes.uint32At b 48 }
  else .error ⟨b.length⟩

/-- The name up to its first NUL. -/
def name (h : Handshake) : String :=
  Text.lossy (Bytes.untilNul h.username.bytes)

end Handshake

end GameLobby
