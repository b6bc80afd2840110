import GameLobby.Frame.Header

/-!
# Reading frames from a stream

A stream hands out its bytes in pieces, however the network cut them, and then stays open, ends or
is reset. A header or a payload is gathered from as many pieces as it takes. A frame is read in two
moves, the header first: a header with a fault costs its 28 bytes and nothing more.

`Stream.frames` reads until a frame cannot be had. What it gives does not depend on the cut.
-/

namespace GameLobby

/-- What follows the last piece of a stream. -/
inductive Ending where
  /-- More may come. -/
  | pending
  /-- The stream ends. -/
  | finished
  /-- The stream fails. -/
  | reset
  deriving DecidableEq, Repr, Inhabited

/-- The unread pieces of a stream, and what follows them. -/
structure Stream where
  pieces : List Bytes
  ending : Ending
  deriving DecidableEq, Repr, Inhabited

namespace Stream

/-- The stream on which nothing has arrived yet. -/
def opened : Stream := ⟨[], .pending⟩

/-- The unread bytes. -/
def bytes (s : Stream) : Bytes := s.pieces.flatten

/-- Up to `n` bytes from the front of the pieces, and the pieces left. Each piece is taken whole if
it fits and is cut otherwise. -/
def gather : Nat → List Bytes → Bytes × List Bytes
  | _, [] => ([], [])
  | n, p :: pieces =>
    if n = 0 then ([], p :: pieces)
    else if p.length ≤ n then
      let (b, rest) := gather (n - p.length) pieces
      (p ++ b, rest)
    else (p.take n, p.drop n :: pieces)

/-- What is gathered does not depend on how the bytes are cut. -/
theorem gather_fst (n : Nat) (pieces : List Bytes) :
    (gather n pieces).1 = pieces.flatten.take n := by
  induction pieces generalizing n with
  | nil => simp [gather]
  | cons p rest ih =>
    unfold gather
    split
    · rename_i h
      simp [h]
    · split
      · rename_i h
        simp only [ih, List.flatten_cons, List.take_append]
        rw [List.take_of_length_le h]
      · rename_i h
        simp only [List.flatten_cons, List.take_append]
        rw [Nat.sub_eq_zero_of_le (Nat.le_of_not_le h), List.take_zero, List.append_nil]

/-- What is left does not depend on how the bytes are cut, apart from where it is cut itself. -/
theorem flatten_gather_snd (n : Nat) (pieces : List Bytes) :
    (gather n pieces).2.flatten = pieces.flatten.drop n := by
  induction pieces generalizing n with
  | nil => simp [gather]
  | cons p rest ih =>
    unfold gather
    split
    · rename_i h
      simp [h]
    · split
      · rename_i h
        simp only [ih, List.flatten_cons, List.drop_append]
        rw [List.drop_of_length_le h, List.nil_append]
      · rename_i h
        simp only [List.flatten_cons, List.drop_append]
        rw [Nat.sub_eq_zero_of_le (Nat.le_of_not_le h), List.drop_zero]

/-- The result of reading one frame. -/
inductive Read where
  | frame (f : Frame)
  | failed (e : FrameError)
  /-- The frame is not complete yet. -/
  | pending
  deriving DecidableEq, Repr

/-- The result of a read that got the bytes `got` and came to the end of the pieces, where more
bytes of a part of a frame were wanted. -/
def Read.short (ending : Ending) (atEnd : FrameError) : Read :=
  match ending with
  | .pending => .pending
  | .finished => .failed atEnd
  | .reset => .failed (.stream .reset)

/-- One frame from the front of a stream, and the stream after it. A frame that is not complete yet
leaves the stream as it is. -/
def next (d : Direction) (s : Stream) : Read × Stream :=
  let (head, pieces) := gather FrameHeader.size s.pieces
  if head.length < FrameHeader.size then
    match Read.short s.ending (if head = [] then .closed else .stream .endInHeader) with
    | .pending => (.pending, s)
    | r => (r, ⟨pieces, s.ending⟩)
  else
    let header := FrameHeader.decode head
    match header.fault? d with
    | some e => (.failed e, ⟨pieces, s.ending⟩)
    | none =>
      let (payload, pieces) := gather header.payloadSize.toNat pieces
      if payload.length < header.payloadSize.toNat then
        match Read.short s.ending (.stream .endInPayload) with
        | .pending => (.pending, s)
        | r => (r, ⟨pieces, s.ending⟩)
      else (.frame ⟨header, payload⟩, ⟨pieces, s.ending⟩)

/-- At most `fuel` frames, what stopped the reading, and the stream after it. -/
def framesUpTo (d : Direction) : Nat → Stream → List Frame × Option FrameError × Stream
  | 0, s => ([], none, s)
  | fuel + 1, s =>
    match next d s with
    | (.frame f, s) =>
      let (frames, stop, s) := framesUpTo d fuel s
      (f :: frames, stop, s)
    | (.failed e, s) => ([], some e, s)
    | (.pending, s) => ([], none, s)

/-- All frames of a stream in order, the error that stopped the reading (none if the stream is only
waiting for more), and the stream after it. Every frame takes 28 bytes or more, so a stream holds
fewer frames than bytes. -/
def frames (d : Direction) (s : Stream) : List Frame × Option FrameError × Stream :=
  framesUpTo d (s.bytes.length + 1) s

end Stream

/-- A byte string cut into pieces of `n` bytes, the last one perhaps shorter; in one piece if `n` is
zero. -/
def Bytes.chunks (n : Nat) (b : Bytes) : List Bytes :=
  if n = 0 then [b] else go b.length b
where
  /-- The pieces of a byte string of at most `fuel` bytes. -/
  go : Nat → Bytes → List Bytes
    | 0, _ => []
    | fuel + 1, b => if b = [] then [] else b.take n :: go fuel (b.drop n)

theorem Bytes.flatten_chunks (n : Nat) (b : Bytes) : (b.chunks n).flatten = b := by
  unfold chunks
  split
  · simp
  · rename_i hn
    suffices h : ∀ fuel (b : Bytes), b.length ≤ fuel → (chunks.go n fuel b).flatten = b from
      h b.length b (Nat.le_refl _)
    intro fuel
    induction fuel with
    | zero =>
      intro b hb
      rw [List.eq_nil_of_length_eq_zero (Nat.le_zero.mp hb)]
      rfl
    | succ fuel ih =>
      intro b hb
      unfold chunks.go
      split
      · rename_i h
        rw [h]
        rfl
      · rename_i h
        have hpos := List.length_pos_iff.mpr h
        rw [List.flatten_cons, ih _ (by rw [List.length_drop]; omega), List.take_append_drop]

end GameLobby
