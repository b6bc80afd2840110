import GameLobby.Checksum
import GameLobby.Text.Hexadecimal

/-!
# Frames

Whatever travels on a connection is a frame: a header of 28 bytes and a payload of at most 1024.

| bytes  | field                                         |
|--------|-----------------------------------------------|
| 0–3    | the magic number                              |
| 4–7    | who sends                                     |
| 8–11   | to whom                                       |
| 12–15  | the kind of frame                             |
| 16–19  | not used, 0                                   |
| 20–23  | the size of the payload                       |
| 24–27  | the checksum of the payload                   |

A header is checked in this order: magic number, sender, receiver, size. The kind is not checked, so
a frame of an unknown kind can be read and passed over.
-/

namespace GameLobby

/-- The kinds of frame. -/
inductive FrameKind where
  /-- One application message. -/
  | applicationMessage
  /-- The first frame of a connection, from the client. -/
  | handshakeConnect
  /-- The answer to it. -/
  | handshakeConnected
  /-- A sign of life. -/
  | ping
  deriving DecidableEq, Repr, Inhabited

namespace FrameKind

/-- The number of a kind in a header. -/
def code : FrameKind → UInt32
  | .applicationMessage => 2
  | .handshakeConnect => 3
  | .handshakeConnected => 5
  | .ping => 11

/-- The name of a kind. -/
def name : FrameKind → String
  | .applicationMessage => "ApplicationMessage"
  | .handshakeConnect => "HandshakeConnect"
  | .handshakeConnected => "HandshakeConnected"
  | .ping => "Ping"

/-- The kind with a number. -/
def ofCode? (code : UInt32) : Option FrameKind :=
  [applicationMessage, handshakeConnect, handshakeConnected, ping].find? fun k => k.code == code

@[simp] theorem ofCode?_code (k : FrameKind) : ofCode? k.code = some k := by
  cases k <;> decide

end FrameKind

/-- Which way a frame travels. -/
inductive Direction where
  | clientToServer
  | serverToClient
  deriving DecidableEq, Repr, Inhabited

/-- The sender and the receiver that a header has to name. -/
def Direction.endpoints : Direction → UInt32 × UInt32
  | .clientToServer => (0xEFFFFFEE, 0xEFFFFFCC)
  | .serverToClient => (0xEFFFFFCC, 3)

/-- How a stream fails inside a frame. -/
inductive StreamFault where
  /-- It ends inside a header. -/
  | endInHeader
  /-- It ends inside a payload. -/
  | endInPayload
  /-- The peer resets the connection. -/
  | reset
  deriving DecidableEq, Repr

/-- What a stream fault is called. -/
def StreamFault.message : StreamFault → String
  | .endInHeader => "unexpected end of file"
  | .endInPayload => "early eof"
  | .reset => "connection reset"

/-- Why no frame can be read, or a frame is not accepted. -/
inductive FrameError where
  /-- The stream ends where a frame could start. -/
  | closed
  | badMagic (actual : UInt32)
  | badSource (actual : UInt32)
  | badDestination (actual : UInt32)
  | payloadTooLarge (size : UInt32)
  | checksumMismatch (expected actual : UInt32)
  | stream (fault : StreamFault)
  deriving DecidableEq, Repr

/-- What an error says. -/
def FrameError.message : FrameError → String
  | .closed => "stream closed by peer"
  | .badMagic n => "invalid frame magic " ++ Text.hex 8 n.toNat
  | .badSource n => "invalid source id " ++ Text.hex 8 n.toNat
  | .badDestination n => "invalid destination id " ++ Text.hex 8 n.toNat
  | .payloadTooLarge n => "payload size " ++ toString n ++ " exceeds limit"
  | .checksumMismatch expected actual =>
    "checksum mismatch: header " ++ Text.hex 8 expected.toNat ++ ", payload " ++
      Text.hex 8 actual.toNat
  | .stream fault => "frame i/o failed: " ++ fault.message

/-- The header of a frame. -/
structure FrameHeader where
  magic : UInt32
  sourceId : UInt32
  destinationId : UInt32
  frameType : UInt32
  reserved : UInt32
  payloadSize : UInt32
  payloadChecksum : UInt32
  deriving DecidableEq, Repr

namespace FrameHeader

/-- The size of a header in bytes. -/
def size : Nat := 28

/-- The largest payload. -/
def maxPayload : Nat := 1024

/-- The number every header starts with. -/
def magicNumber : UInt32 := 0xDABAFBEF

/-- The header that carries a payload under a kind number. -/
def carrying (d : Direction) (frameType : UInt32) (payload : Bytes) (checksum : Checksum) :
    FrameHeader where
  magic := magicNumber
  sourceId := d.endpoints.1
  destinationId := d.endpoints.2
  frameType := frameType
  reserved := 0
  payloadSize := UInt32.ofNat payload.length
  payloadChecksum := checksum payload

/-- The kind of frame, if it is a known one. -/
def kind? (h : FrameHeader) : Option FrameKind :=
  FrameKind.ofCode? h.frameType

/-- The bytes of a header. -/
def encode (h : FrameHeader) : Bytes :=
  Bytes.ofUInt32 h.magic ++ Bytes.ofUInt32 h.sourceId ++ Bytes.ofUInt32 h.destinationId ++
    Bytes.ofUInt32 h.frameType ++ Bytes.ofUInt32 h.reserved ++ Bytes.ofUInt32 h.payloadSize ++
    Bytes.ofUInt32 h.payloadChecksum

/-- The header with the given 28 bytes, not yet checked. -/
def decode (b : Bytes) : FrameHeader where
  magic := Bytes.uint32At b 0
  sourceId := Bytes.uint32At b 4
  destinationId := Bytes.uint32At b 8
  frameType := Bytes.uint32At b 12
  reserved := Bytes.uint32At b 16
  payloadSize := Bytes.uint32At b 20
  payloadChecksum := Bytes.uint32At b 24

@[simp] theorem length_encode (h : FrameHeader) : h.encode.length = size := rfl

@[simp] theorem decode_encode (h : FrameHeader) : decode h.encode = h := by
  cases h
  rw [decode, mk.injEq]
  exact ⟨Bytes.word32_ofUInt32 _, Bytes.word32_ofUInt32 _, Bytes.word32_ofUInt32 _,
    Bytes.word32_ofUInt32 _, Bytes.word32_ofUInt32 _, Bytes.word32_ofUInt32 _,
    Bytes.word32_ofUInt32 _⟩

/-- The first fault of a header. -/
def fault? (d : Direction) (h : FrameHeader) : Option FrameError :=
  if h.magic ≠ magicNumber then some (.badMagic h.magic)
  else if h.sourceId ≠ d.endpoints.1 then some (.badSource h.sourceId)
  else if h.destinationId ≠ d.endpoints.2 then some (.badDestination h.destinationId)
  else if maxPayload < h.payloadSize.toNat then some (.payloadTooLarge h.payloadSize)
  else none

end FrameHeader

/-- A header and its payload. -/
structure Frame where
  header : FrameHeader
  payload : Bytes
  deriving DecidableEq, Repr

namespace Frame

/-- The frame that carries a payload. -/
def carrying (d : Direction) (kind : FrameKind) (payload : Bytes) (checksum : Checksum) : Frame :=
  ⟨.carrying d kind.code payload checksum, payload⟩

/-- The bytes of a frame. -/
def encode (f : Frame) : Bytes :=
  f.header.encode ++ f.payload

/-- The mismatch between header and payload, if there is one. -/
def checksumFault? (checksum : Checksum) (f : Frame) : Option FrameError :=
  if checksum f.payload ≠ f.header.payloadChecksum then
    some (.checksumMismatch f.header.payloadChecksum (checksum f.payload))
  else none

end Frame

end GameLobby
