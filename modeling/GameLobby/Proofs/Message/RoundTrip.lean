import GameLobby.Message.Payload
import GameLobby.Proofs.Message.Size
import GameLobby.Proofs.Wire.RoundTrip

/-!
# Messages read back

A message that is written and read comes back as it was (`ofPayload_payload`), except that strings
lose one NUL at the end if they have one (`Message.trimmed`). This holds of messages whose strings
can be counted, and so of all that fit a frame (`short_of_fits`). Main statement:
`decode_encode_trims`, of all that a schema can describe.
-/

namespace GameLobby

open Wire

namespace Message

/-- What a message reads after it was written. -/
def trimmed (m : Message) : Message :=
  .ofRecord m.type m.record.trimmed

/-- Each string and each byte string of a message can be counted. -/
def Short (m : Message) : Prop :=
  ∀ v ∈ m.values, v.Short

theorem type_trimmed (m : Message) : m.trimmed.type = m.type :=
  type_ofRecord ..

theorem values_trimmed (m : Message) : m.trimmed.values = m.values.map Value.trimmed := by
  have hrecord : m.trimmed.record.values = m.record.trimmed.values := by
    cases m <;> rfl
  rw [values, hrecord, Record.values_trimmed, type_trimmed]
  rfl

theorem typed_values (m : Message) : m.type.schema.Typed m.values :=
  congrArg (FieldType.u16 :: ·) m.record.typed_values

end Message

/-! ## Short messages -/

theorem Wire.Value.width_le_widths {v : Value} {values : List Value} (h : v ∈ values) :
    v.width ≤ widths values := by
  induction values with
  | nil => exact nomatch h
  | cons w values ih =>
    show v.width ≤ w.width + widths values
    rcases List.mem_cons.mp h with rfl | h
    · exact Nat.le_add_right ..
    · exact Nat.le_trans (ih h) (Nat.le_add_left ..)

theorem Wire.Value.short_of_width {v : Value} (h : v.width < UInt32.size) : v.Short := by
  cases v with
  | string s =>
    have hwidth : 4 + (terminated s).length < UInt32.size := h
    have hle : s.length ≤ (terminated s).length := by
      unfold terminated
      split
      · exact Nat.le_refl _
      · exact List.length_append ▸ Nat.le_add_right ..
    show s.length + 1 < UInt32.size
    omega
  | bytes b =>
    have hwidth : 4 + b.length < UInt32.size := h
    show b.length < UInt32.size
    omega
  | u8 | u16 | u32 | bool => trivial

/-- A message that fits a frame has no string too long to be counted. -/
theorem Message.short_of_fits {m : Message} (h : m.fits) : m.Short := by
  have hle := fits_iff.mp h
  have hmax : FrameHeader.maxPayload = 1024 := rfl
  have hsize : UInt32.size = 4294967296 := rfl
  refine List.forall_mem_cons.mpr ⟨trivial, fun v hv => ?_⟩
  have hwidth : v.width ≤ m.width := Value.width_le_widths hv
  exact Value.short_of_width (by omega)

/-! ## Payloads -/

section Payload

variable (m : Message)

theorem Payload.split_payload : Payload.split m.payload = .ok (m.type.code, m.body) := by
  unfold Payload.split Message.payload
  rw [List.append_assoc, Bytes.readUInt16_ofUInt16_append]
  dsimp only
  rw [Bytes.readUInt16_ofUInt16_append]
  rfl

theorem Payload.typeOf_code : Payload.typeOf m.type.code = .ok m.type := by
  unfold Payload.typeOf
  rw [MessageType.ofCode?_code]

variable (h : m.Short)

include h

theorem Received.ofBody_body : Received.ofBody m.type m.body = .ok ⟨m.type.code, m.trimmed⟩ := by
  have hbody : m.body =
      Bytes.ofUInt16 m.type.code ++ (m.record.values.flatMap Value.encode ++ []) := by
    rw [List.append_nil]
    rfl
  obtain ⟨-, hshort⟩ := List.forall_mem_cons.mp h
  unfold Received.ofBody
  rw [hbody, Bytes.readUInt16_ofUInt16_append]
  dsimp only
  rw [m.record.typed_values.decode_flatMap_encode hshort []]
  dsimp only
  rw [← Record.values_trimmed, Record.ofFields_values]
  rfl

/-- **Round trip.** The payload that carries a message carries that message. -/
theorem Received.ofPayload_payload :
    Received.ofPayload m.payload = .ok ⟨m.type.code, m.trimmed⟩ := by
  unfold Received.ofPayload
  rw [Payload.split_payload]
  dsimp only
  rw [Payload.typeOf_code]
  dsimp only
  rw [Received.ofBody_body m h]

end Payload

/-! ## Every format -/

/-- **Formats.** Whatever the schema, values that fit it are written and read back, each string
without one NUL at its end and everything else as it was, and the bytes behind them are left; only
strings that end in NUL change. A message of whatever type is written in the same way behind its
envelope, and the envelope and the type in it and the body are read back. -/
theorem decode_encode_trims :
    (∀ (schema : Schema) (values : List Value) (rest : Bytes),
      values.map Value.type = schema.map Field.type → (∀ v ∈ values, v.Short) →
      ∃ written, schema.encode values = .ok written ∧
        schema.decode (written ++ rest) = .ok (values.map Value.trimmed, rest) ∧
        (values.map Value.trimmed = values ↔ ∀ s, .string s ∈ values → s.getLast? ≠ some 0)) ∧
    ∀ m : Message, (∀ v ∈ m.values, v.Short) →
      ∃ body m', m.type.schema.encode m.values = .ok body ∧
        m.payload = Bytes.ofUInt16 Payload.magic ++ Bytes.ofUInt16 m.type.code ++ body ∧
        Payload.split m.payload = .ok (m.type.code, body) ∧
        Payload.typeOf m.type.code = .ok m.type ∧
        Received.ofBody m.type body = .ok ⟨m.type.code, m'⟩ ∧
        m'.type = m.type ∧ m'.values = m.values.map Value.trimmed := by
  constructor
  · intro schema values rest htyped hshort
    have htyped : schema.Typed values := htyped
    exact ⟨values.flatMap Value.encode, htyped.encode_eq,
      htyped.decode_flatMap_encode hshort rest, map_trimmed_eq_self_iff⟩
  · intro m hshort
    exact ⟨m.body, m.trimmed, m.typed_values.encode_eq, rfl, Payload.split_payload m,
      Payload.typeOf_code m, Received.ofBody_body m hshort, m.type_trimmed, m.values_trimmed⟩

/-- A string with two NULs at its end keeps one of them, and a byte string keeps all. -/
theorem two_nuls_read_back :
    Schema.decode [⟨"text", .string⟩, ⟨"data", .bytes⟩]
        ([4, 0, 0, 0, 65, 66, 0, 0] ++ [2, 0, 0, 0, 0, 0] ++ [9]) =
      .ok ([.string [65, 66, 0], .bytes [0, 0]], [9]) ∧
    ∃ m', Received.ofBody .chat (Message.body (.chat ⟨[65, 0, 0], 3⟩)) = .ok ⟨165, m'⟩ ∧
      m'.values = [.u16 165, .string [65, 0], .u32 3] := by
  obtain ⟨hvalues, hmessages⟩ := decode_encode_trims
  constructor
  · obtain ⟨written, hwritten, hread, -⟩ := hvalues [⟨"text", .string⟩, ⟨"data", .bytes⟩]
      [.string [65, 66, 0, 0], .bytes [0, 0]] [9] rfl (by decide)
    cases hwritten
    exact hread
  · obtain ⟨body, m', hbody, -, -, -, hread, -, hm'⟩ :=
      hmessages (.chat ⟨[65, 0, 0], 3⟩) (by decide)
    cases hbody
    exact ⟨m', hread, hm'⟩

end GameLobby
