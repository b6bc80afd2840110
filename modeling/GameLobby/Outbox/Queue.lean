import GameLobby.Frame.Header
import GameLobby.Ids

/-!
# Outboxes

Everything the lobby sends on a connection goes through the connection's outbox, a queue of bounded
length, so that frames from different senders do not mix. Pushing never waits. A full queue means
that the peer reads too slowly: the frame is lost and a kick is stored, which asks the connection's
session to end. A frame that is too large is refused and does no harm.
-/

namespace GameLobby

/-- A frame in a queue, not yet sealed with a header. -/
structure OutboundFrame where
  kind : FrameKind
  payload : Bytes
  deriving DecidableEq, Repr

namespace OutboundFrame

/-- The bytes of an outbound frame on the wire. -/
def encode (checksum : Checksum) (f : OutboundFrame) : Bytes :=
  (Frame.carrying .serverToClient f.kind f.payload checksum).encode

/-- `b` is a header of 28 bytes, from the server to a client, with the kind of `f` and the size and
the checksum of its payload, and then the payload. -/
structure Sealed (checksum : Checksum) (f : OutboundFrame) (b : Bytes) : Prop where
  length_eq : b.length = 28 + f.payload.length
  magic : Bytes.uint32At b 0 = 0xDABAFBEF
  source : Bytes.uint32At b 4 = 0xEFFFFFCC
  destination : Bytes.uint32At b 8 = 3
  kind : Bytes.uint32At b 12 = f.kind.code
  unused : Bytes.uint32At b 16 = 0
  size : Bytes.uint32At b 20 = UInt32.ofNat f.payload.length
  checksum : Bytes.uint32At b 24 = checksum f.payload
  payload : b.drop 28 = f.payload

theorem sealed_encode (checksum : Checksum) (f : OutboundFrame) :
    f.Sealed checksum (f.encode checksum) where
  length_eq := List.length_append
  magic := Bytes.uint32At_of_drop_eq rfl
  source := Bytes.uint32At_of_drop_eq rfl
  destination := Bytes.uint32At_of_drop_eq rfl
  kind := Bytes.uint32At_of_drop_eq rfl
  unused := Bytes.uint32At_of_drop_eq rfl
  size := Bytes.uint32At_of_drop_eq rfl
  checksum := Bytes.uint32At_of_drop_eq rfl
  payload := rfl

theorem Sealed.length_pos {checksum : Checksum} {f : OutboundFrame} {b : Bytes}
    (h : f.Sealed checksum b) : 0 < b.length := by
  rw [h.length_eq]
  omega

end OutboundFrame

/-- Why a frame is not queued. -/
inductive PushError where
  /-- The payload does not fit a frame. -/
  | payloadTooLarge (size : Nat)
  /-- The queue is full. -/
  | overflow (conn : ConnectionId)
  /-- Nobody takes frames out any more. -/
  | closed (conn : ConnectionId)
  deriving DecidableEq, Repr

/-- What an error says. -/
def PushError.message : PushError → String
  | .payloadTooLarge size => "payload of " ++ toString size ++ " bytes exceeds the frame limit"
  | .overflow conn => "outbound queue of " ++ toString conn ++ " overflowed"
  | .closed conn => "connection closed: writer for " ++ toString conn ++ " has stopped"

/-- The queue of a connection. -/
structure Outbox where
  conn : ConnectionId
  capacity : Nat
  queue : List OutboundFrame
  /-- Whether nobody takes frames out any more. -/
  closed : Bool
  /-- Whether a kick is stored. Several kicks store one. -/
  kicked : Bool
  deriving DecidableEq, Repr

namespace Outbox

/-- The longest queue there can be. -/
def maxCapacity : Nat := UInt64.size / 8 - 1

/-- An empty queue of at most `capacity` frames. There is none of length zero. -/
def new? (conn : ConnectionId) (capacity : Nat) : Option Outbox :=
  if 0 < capacity ∧ capacity ≤ maxCapacity then some ⟨conn, capacity, [], false, false⟩ else none

/-- A frame put at the end of the queue. Faults are looked for in this order: the size of the
payload, a closed queue, a full queue. -/
def push (o : Outbox) (f : OutboundFrame) : Except PushError Unit × Outbox :=
  if FrameHeader.maxPayload < f.payload.length then (.error (.payloadTooLarge f.payload.length), o)
  else if o.closed then (.error (.closed o.conn), o)
  else if o.capacity ≤ o.queue.length then (.error (.overflow o.conn), { o with kicked := true })
  else (.ok (), { o with queue := o.queue ++ [f] })

/-- The frame at the front, taken out. -/
def pop (o : Outbox) : Option OutboundFrame × Outbox :=
  match o.queue with
  | [] => (none, o)
  | f :: rest => (some f, { o with queue := rest })

/-- A kick stored. -/
def kick (o : Outbox) : Outbox :=
  { o with kicked := true }

/-- Whether a kick was stored, which takes it. -/
def takeKick (o : Outbox) : Bool × Outbox :=
  (o.kicked, { o with kicked := false })

/-- The outbox closed: what is queued is lost and nothing more is taken in. -/
def close (o : Outbox) : Outbox :=
  { o with queue := [], closed := true }

/-! ## What becomes of a frame -/

section Push

variable {o : Outbox} {f : OutboundFrame}

theorem push_of_large (hlarge : FrameHeader.maxPayload < f.payload.length) :
    o.push f = (.error (.payloadTooLarge f.payload.length), o) :=
  if_pos hlarge

variable (hfits : f.payload.length ≤ FrameHeader.maxPayload)

include hfits

theorem push_of_closed (hclosed : o.closed = true) : o.push f = (.error (.closed o.conn), o) := by
  rw [push, if_neg (Nat.not_lt.mpr hfits), if_pos hclosed]

theorem push_of_full (hopen : o.closed = false) (hfull : o.capacity ≤ o.queue.length) :
    o.push f = (.error (.overflow o.conn), o.kick) := by
  rw [push, if_neg (Nat.not_lt.mpr hfits), if_neg (Bool.eq_false_iff.mp hopen), if_pos hfull, kick]

theorem push_of_room (hopen : o.closed = false) (hroom : o.queue.length < o.capacity) :
    o.push f = (.ok (), { o with queue := o.queue ++ [f] }) := by
  rw [push, if_neg (Nat.not_lt.mpr hfits), if_neg (Bool.eq_false_iff.mp hopen),
    if_neg (Nat.not_le.mpr hroom)]

end Push

end Outbox

end GameLobby
