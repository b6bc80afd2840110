import GameLobby.News

/-!
# Sizes of messages

The size of a payload is that of the envelope and of the fields (`length_payload`). A number takes
the same place whatever it is, so what a room shows has one size as long as its settings stay
(`fits_snapshot_iff`).
-/

namespace GameLobby

open Wire

/-- How many bytes a value takes. -/
def Wire.Value.width : Value → Nat
  | .u8 _ | .bool _ => 1
  | .u16 _ => 2
  | .u32 _ => 4
  | .string s => 4 + (terminated s).length
  | .bytes b => 4 + b.length

theorem Wire.Value.length_encode (v : Value) : v.encode.length = v.width := by
  cases v with
  | string s => simp [Value.encode, counted, width]
  | bytes b => simp [Value.encode, counted, width]
  | u8 | u16 | u32 | bool => rfl

/-- How many bytes some values take. -/
def Wire.Value.widths (values : List Value) : Nat :=
  values.foldr (fun v n => v.width + n) 0

theorem Wire.Value.length_flatMap_encode (values : List Value) :
    (values.flatMap Value.encode).length = widths values := by
  induction values with
  | nil => rfl
  | cons v values ih =>
    rw [List.flatMap_cons, List.length_append, v.length_encode, ih]
    rfl

namespace Message

/-- How many bytes the fields of a message take. -/
def width (m : Message) : Nat :=
  Value.widths m.record.values

theorem length_payload (m : Message) : m.payload.length = 6 + m.width := by
  unfold payload body
  rw [List.length_append, List.length_append, Value.length_flatMap_encode]
  show 2 + 2 + (2 + m.width) = _
  omega

theorem fits_iff {m : Message} : m.fits ↔ 6 + m.width ≤ FrameHeader.maxPayload := by
  unfold fits
  rw [decide_eq_true_iff, length_payload]

/-- The notice that a room is gone fits a frame. -/
theorem fits_removeServer (notice : RemoveServer) : (removeServer notice).fits :=
  fits_iff.mpr (by show 6 + 9 ≤ 1024; omega)

/-- The notice that a user has left fits a frame. -/
theorem fits_userLoggedOut (notice : UserLoggedOut) : (userLoggedOut notice).fits :=
  fits_iff.mpr (by show 6 + 4 ≤ 1024; omega)

end Message

/-- What a room with these settings shows fits a frame. -/
def RoomSettings.Fits (s : RoomSettings) : Prop :=
  (Message.gameServerData (s.snapshot ⟨0⟩ ⟨0⟩ 0)).fits

theorem RoomSettings.fits_snapshot_iff (s : RoomSettings) (id : RoomId) (owner : UserId)
    (ticketId : UInt32) :
    (Message.gameServerData (s.snapshot id owner ticketId)).fits ↔ s.Fits := by
  unfold Fits
  rw [Message.fits_iff, Message.fits_iff]
  exact Iff.rfl

/-- Whatever has become of a room, what it shows is as large as its settings make it. -/
theorem Room.fits_snapshot_iff (r : Room) (ticketId : UInt32) :
    (Message.gameServerData (r.snapshot ticketId)).fits ↔ r.settings.Fits := by
  unfold RoomSettings.Fits
  rw [Message.fits_iff, Message.fits_iff]
  exact Iff.rfl

-- only the two lemmas about what a snapshot takes are used of it
attribute [irreducible] RoomSettings.Fits

/-- No outbox refuses a message for its size. -/
def Message.NeverTooLarge (m : Message) : Prop :=
  ∀ (box : Outbox) (size : Nat), (box.push m.frame).1 ≠ .error (.payloadTooLarge size)

theorem Message.neverTooLarge {m : Message} (h : m.fits) : m.NeverTooLarge := by
  intro box size
  have hle : ¬ FrameHeader.maxPayload < m.frame.payload.length :=
    Nat.not_lt.mpr (of_decide_eq_true h)
  unfold Outbox.push
  rw [if_neg hle]
  split
  · simp
  · split <;> simp

/-- What an outbox takes in fits a frame. -/
theorem Outbox.fits_of_push {m : Message} {o : Outbox} (h : (o.push m.frame).1 = .ok ()) :
    m.fits := by
  unfold push at h
  split at h
  · exact nomatch h
  · rename_i hle
    exact decide_eq_true (Nat.not_lt.mp hle)

end GameLobby
