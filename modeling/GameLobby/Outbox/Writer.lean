import GameLobby.Outbox.Queue

/-!
# Writers

A writer moves frames from an outbox to the connection, one after the other. It takes a frame out of
the queue and then writes it, so while the connection accepts nothing the writer holds one frame
outside the queue. A connection may take the bytes of a frame in several goes, and then it may stop
accepting or break with part of the frame written. A failed write ends the writer: the rest of the
frame and the queue are lost, the outbox is closed and a kick is stored. It also ends when
everything is written and nobody can push any more. Whenever it ends it shuts the connection's write
side.
-/

namespace GameLobby

/-- How a connection takes what is written to it. -/
inductive Link where
  /-- At once. -/
  | flowing
  /-- Not at all, for now. -/
  | stalled
  /-- Every write fails. -/
  | broken
  deriving DecidableEq, Repr, Inhabited

/-- A frame that was taken out of the queue and is not yet written as a whole. -/
structure Underway where
  frame : OutboundFrame
  /-- How many of its bytes are written. -/
  sent : Nat
  deriving DecidableEq, Repr

namespace Underway

/-- A frame of which nothing is written yet. -/
def fresh (f : OutboundFrame) : Underway := ⟨f, 0⟩

/-- The bytes of the frame that are written. -/
def begun (checksum : Checksum) (u : Underway) : Bytes :=
  (u.frame.encode checksum).take u.sent

/-- The bytes of the frame that are not yet written. -/
def left (checksum : Checksum) (u : Underway) : Bytes :=
  (u.frame.encode checksum).drop u.sent

@[simp] theorem frame_fresh (f : OutboundFrame) : (fresh f).frame = f := rfl

@[simp] theorem begun_fresh (checksum : Checksum) (f : OutboundFrame) :
    (fresh f).begun checksum = [] := rfl

@[simp] theorem left_fresh (checksum : Checksum) (f : OutboundFrame) :
    (fresh f).left checksum = f.encode checksum := rfl

@[simp] theorem begun_append_left (checksum : Checksum) (u : Underway) :
    u.begun checksum ++ u.left checksum = u.frame.encode checksum :=
  List.take_append_drop ..

/-- The frame after `n` more of its bytes are written. -/
def advance (n : Nat) (u : Underway) : Underway :=
  { u with sent := u.sent + n }

@[simp] theorem frame_advance (n : Nat) (u : Underway) : (u.advance n).frame = u.frame := rfl

theorem begun_advance (checksum : Checksum) (n : Nat) (u : Underway) :
    (u.advance n).begun checksum = u.begun checksum ++ (u.left checksum).take n :=
  List.take_add

theorem left_advance (checksum : Checksum) (n : Nat) (u : Underway) :
    (u.advance n).left checksum = (u.left checksum).drop n :=
  List.drop_drop.symm

end Underway

/-- The writing side of a connection. -/
structure Writer where
  link : Link
  held : Option Underway
  /-- The bytes written and not yet collected by the peer. -/
  written : Bytes
  /-- Whether the write side is shut. -/
  shut : Bool
  deriving DecidableEq, Repr

namespace Writer

/-- A writer that has written nothing yet. -/
def start (link : Link) : Writer := ⟨link, none, [], false⟩

/-- The frames in the writer's hand. -/
def inHand (w : Writer) : List OutboundFrame := w.held.toList.map (·.frame)

/-- What is written of the frame in the writer's hand. -/
def begun (checksum : Checksum) (w : Writer) : Bytes :=
  w.held.toList.flatMap (·.begun checksum)

/-- What a writer has to write, in its hand and in the queue. -/
def pending (o : Outbox) (w : Writer) : List Underway :=
  w.held.toList ++ o.queue.map .fresh

/-- They are the frames in its hand and then the queue. -/
theorem map_frame_pending (o : Outbox) (w : Writer) :
    (w.pending o).map (·.frame) = w.inHand ++ o.queue := by
  rw [pending, List.map_append, List.map_map]
  exact congrArg (w.inHand ++ ·) (List.map_id _)

/-- The writer's work until there is no more it can do, on a connection that takes all that it is
given while it flows. `released` says that nobody can push to the outbox any more. -/
def run (checksum : Checksum) (released : Bool) (o : Outbox) (w : Writer) : Outbox × Writer :=
  if w.shut then (o, w)
  else
    match w.link, w.pending o with
    | _, [] => if released then (o.close, { w with shut := true }) else (o, w)
    | .flowing, us =>
      let written := w.written ++ us.flatMap (·.left checksum)
      if released then (o.close, { w with held := none, written := written, shut := true })
      else ({ o with queue := [] }, { w with held := none, written := written })
    | .stalled, u :: rest => ({ o with queue := rest.map (·.frame) }, { w with held := some u })
    | .broken, _ => (o.close.kick, { w with held := none, shut := true })

/-- The peer collects what was written. -/
def collect (w : Writer) : Bytes × Writer :=
  (w.written, { w with written := [] })

/-- The connection stops accepting bytes. A broken one stays broken. -/
def stall (w : Writer) : Writer :=
  { w with link := if w.link = .broken then .broken else .stalled }

/-- The connection accepts bytes again. A broken one stays broken. -/
def resume (w : Writer) : Writer :=
  { w with link := if w.link = .broken then .broken else .flowing }

/-- Every write fails from now on. -/
def sever (w : Writer) : Writer :=
  { w with link := .broken }

end Writer

end GameLobby
