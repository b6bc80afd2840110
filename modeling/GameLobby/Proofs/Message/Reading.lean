import GameLobby.Message.Request
import GameLobby.Proofs.Message.Size
import GameLobby.Proofs.Wire.RoundTrip

/-!
# Sizes of messages that were read

A string may come without the NUL that ends it, and is written with one. Nothing else that is read
takes more bytes when it is written, so a message that was read is at most one byte longer for each
of its fields than the payload it came in (`Received.length_payload_le`). A login has room to spare:
the name in it can be told in a frame (`Received.fits_userLoggedIn`).
-/

namespace GameLobby

open Wire

/-! ## One value -/

theorem Bytes.length_of_readUInt16 {b rest : Bytes} {n : UInt16}
    (h : readUInt16 b = some (n, rest)) : b.length = rest.length + 2 := by
  unfold readUInt16 at h
  split at h
  · cases h
    rfl
  · cases h

theorem Bytes.length_of_readUInt32 {b rest : Bytes} {n : UInt32}
    (h : readUInt32 b = some (n, rest)) : b.length = rest.length + 4 := by
  unfold readUInt32 at h
  split at h
  · cases h
    rfl
  · cases h

namespace Wire

theorem length_of_readCounted {b s rest : Bytes} (h : readCounted b = some (s, rest)) :
    b.length = 4 + s.length + rest.length := by
  unfold readCounted at h
  obtain ⟨⟨count, left⟩, hcount, hleft⟩ := Option.bind_eq_some_iff.mp h
  have hlength := Bytes.length_of_readUInt32 hcount
  dsimp only at hleft
  unfold Bytes.splitAt? at hleft
  split at hleft
  · rename_i hle
    cases hleft
    rw [hlength, List.length_take_of_le hle, List.length_drop]
    omega
  · cases hleft

theorem length_unterminated_le (b : Bytes) : (unterminated b).length ≤ b.length := by
  unfold unterminated
  split
  · exact List.length_dropLast ▸ Nat.sub_le ..
  · exact Nat.le_refl _

/-- A value that was read takes the bytes it was read from, or one more. -/
theorem FieldType.width_decode_le {t : FieldType} {b rest : Bytes} {v : Value}
    (h : t.decode b = some (v, rest)) : v.width + rest.length ≤ b.length + 1 := by
  unfold FieldType.decode at h
  split at h
  · cases h
    show 1 + rest.length ≤ rest.length + 1 + 1
    omega
  · obtain ⟨⟨n, left⟩, hread, heq⟩ := Option.map_eq_some_iff.mp h
    cases heq
    have hlength := Bytes.length_of_readUInt16 hread
    show 2 + rest.length ≤ _
    omega
  · obtain ⟨⟨n, left⟩, hread, heq⟩ := Option.map_eq_some_iff.mp h
    cases heq
    have hlength := Bytes.length_of_readUInt32 hread
    show 4 + rest.length ≤ _
    omega
  · cases h
    show 1 + rest.length ≤ rest.length + 1 + 1
    omega
  · obtain ⟨⟨s, left⟩, hread, heq⟩ := Option.map_eq_some_iff.mp h
    cases heq
    have hlength := length_of_readCounted hread
    have hterminated := length_terminated_le (unterminated s)
    have hunterminated := length_unterminated_le s
    show 4 + (terminated (unterminated s)).length + rest.length ≤ _
    omega
  · obtain ⟨⟨s, left⟩, hread, heq⟩ := Option.map_eq_some_iff.mp h
    cases heq
    have hlength := length_of_readCounted hread
    show 4 + s.length + rest.length ≤ _
    omega
  · cases h

/-! ## Many values -/

theorem Schema.widths_decode_le {schema : Schema} {b rest : Bytes} {values : List Value}
    (h : schema.decode b = .ok (values, rest)) :
    Value.widths values + rest.length ≤ b.length + schema.length := by
  induction schema generalizing b values with
  | nil =>
    cases h
    exact Nat.le_of_eq (Nat.zero_add _)
  | cons f fields ih =>
    unfold Schema.decode at h
    split at h
    · cases h
    rename_i v left hv
    split at h
    · cases h
    rename_i values' rest' hvalues
    cases h
    have hfirst := FieldType.width_decode_le hv
    have hrest := ih hvalues
    show v.width + Value.widths values' + rest.length ≤ b.length + (fields.length + 1)
    omega

/-- A record holds the values in front, one for each field. -/
theorem Record.values_ofFields {schema : Schema} {values : List Value} {r : Record schema}
    (h : ofFields schema values = .ok r) : r.values <+: values := by
  induction schema generalizing values with
  | nil => exact List.nil_prefix
  | cons f fields ih =>
    unfold ofFields at h
    split at h
    · cases h
    rename_i v values'
    split at h
    · cases h
    rename_i c hc
    cases hrest : ofFields fields values' with
    | error e =>
      rw [hrest] at h
      cases h
    | ok r' =>
      rw [hrest] at h
      cases h
      rw [Value.carrier?_eq_some_iff.mp hc]
      exact List.cons_prefix_cons.mpr ⟨rfl, ih hrest⟩

theorem Value.widths_le_of_prefix {values values' : List Value} (h : values <+: values') :
    widths values ≤ widths values' := by
  obtain ⟨rest, rfl⟩ := h
  rw [← length_flatMap_encode, ← length_flatMap_encode, List.flatMap_append, List.length_append]
  exact Nat.le_add_right ..

end Wire

/-! ## Messages -/

namespace Received

variable {received : Received}

theorem width_ofBody_le {t : MessageType} {body : Bytes} (h : ofBody t body = .ok received) :
    received.message.type = t ∧ 2 + received.message.width ≤ body.length + t.fields.length := by
  unfold ofBody at h
  split at h
  · cases h
  rename_i echo rest hecho
  split at h
  · cases h
  rename_i values left hvalues
  split at h
  · cases h
  rename_i record hrecord
  cases h
  have hlength := Bytes.length_of_readUInt16 hecho
  have hdecoded := Schema.widths_decode_le hvalues
  have hle := Value.widths_le_of_prefix (Record.values_ofFields hrecord)
  have hwidth : (Message.ofRecord t record).width = Value.widths record.values := by
    unfold Message.width
    cases t <;> rfl
  refine ⟨Message.type_ofRecord t record, ?_⟩
  show 2 + (Message.ofRecord t record).width ≤ _
  omega

/-- **Sizes.** A message that came in a payload is written in as many bytes, or in one more for each
field. -/
theorem length_payload_le {payload : Bytes} (h : ofPayload payload = .ok received) :
    received.message.payload.length ≤
      payload.length + received.message.type.fields.length := by
  unfold ofPayload Payload.split at h
  cases hmagic : Bytes.readUInt16 payload with
  | none =>
    rw [hmagic] at h
    cases h
  | some p =>
    obtain ⟨start, rest⟩ := p
    rw [hmagic] at h
    dsimp only at h
    cases hcode : Bytes.readUInt16 rest with
    | none =>
      rw [hcode] at h
      cases h
    | some p =>
      obtain ⟨code, body⟩ := p
      rw [hcode] at h
      dsimp only at h
      split at h
      · cases h
      rename_i code' body' hsplit
      split at hsplit
      · cases hsplit
        split at h
        · cases h
        rename_i t ht
        split at h
        · cases h
        rename_i received' hbody
        cases h
        obtain ⟨htype, hwidth⟩ := width_ofBody_le hbody
        have hstart := Bytes.length_of_readUInt16 hmagic
        have hrest := Bytes.length_of_readUInt16 hcode
        rw [Message.length_payload, htype]
        omega
      · cases hsplit

end Received

/-! ## Logins -/

/-- The name under which a request asks to be let in. -/
def Request.nickname? : Request → Option RawText
  | .login r => some r.nickname
  | .newAccount r => some r.nickname
  | _ => none

/-- Next to the name come two strings and three numbers. -/
theorem Message.width_of_nickname {m : Message} {r : Request} {nickname : RawText}
    (hr : m.request? = some r) (hname : r.nickname? = some nickname) :
    m.type.fields.length = 6 ∧ (terminated nickname).length + 22 ≤ m.width := by
  have hroom : ∀ name password cdkey : Bytes, (terminated name).length + 22 ≤
      (4 + (terminated name).length) + ((4 + (terminated password).length) +
        ((4 + cdkey.length) + (2 + (4 + (4 + 0))))) := by
    intro name password cdkey
    omega
  cases m <;> cases hr <;> cases hname
  case requestLogin m => exact ⟨rfl, hroom m.nickname m.password m.cdkey⟩
  case requestCreateAccount m => exact ⟨rfl, hroom m.nickname m.password m.cdkey⟩

/-- Whoever asks to be let in by a frame has a name that can be told in one. -/
theorem Received.fits_userLoggedIn {received : Received} {payload : Bytes} {r : Request}
    {nickname : RawText} (h : ofPayload payload = .ok received)
    (hle : payload.length ≤ FrameHeader.maxPayload) (hr : received.message.request? = some r)
    (hname : r.nickname? = some nickname) (number : UInt32) :
    (Message.userLoggedIn ⟨number, nickname⟩).fits := by
  have hlength := length_payload_le h
  obtain ⟨hfields, hwidth⟩ := Message.width_of_nickname hr hname
  rw [Message.length_payload, hfields] at hlength
  rw [Message.fits_iff]
  show 6 + (4 + (4 + (terminated nickname).length + 0)) ≤ FrameHeader.maxPayload
  have hmax : FrameHeader.maxPayload = 1024 := rfl
  omega

end GameLobby
