import GameLobby.Proofs.Message.RoundTrip
import GameLobby.Proofs.Wire.Items

/-!
# The codec has an answer for everything

Values are written unless they do not fit the schema, and then the error says what is wrong: the
count, or else the first value of a wrong type (`Schema.FirstWrong`). The three views of a message
(its fields, its values and its schema) fit each other, so writing a message never fails
(`Message.encode_values`), values that fit its schema are a message (`Message.ofValues_of_typed`),
and the bytes of a body are a message unless they end inside a field (`Received.ofBody_cases`). Main
statement: `codec_total`.
-/

namespace GameLobby

open Wire

/-! ## Writing values -/

namespace Wire.Schema

/-- `v` is the first value of a wrong type, and `f` the field that it is for. -/
def FirstWrong (schema : Schema) (values : List Value) (f : Field) (v : Value) : Prop :=
  ∃ before after earlier later, schema = before ++ f :: after ∧ values = earlier ++ v :: later ∧
    Typed before earlier ∧ v.type ≠ f.type

variable {schema : Schema} {values : List Value}

/-- As many values as fields fit, or one of them is the first that does not. -/
theorem typed_or_firstWrong (h : schema.length = values.length) :
    schema.Typed values ∨ ∃ f v, schema.FirstWrong values f v := by
  induction schema generalizing values with
  | nil =>
    obtain rfl := List.eq_nil_of_length_eq_zero h.symm
    exact .inl rfl
  | cons f fields ih =>
    cases values with
    | nil => cases h
    | cons v values =>
      by_cases htype : v.type = f.type
      · rcases ih (Nat.succ.inj h) with htyped |
          ⟨g, w, before, after, earlier, later, rfl, rfl, hearlier, hwrong⟩
        · exact .inl (htyped.cons htype)
        · exact .inr ⟨g, w, f :: before, after, v :: earlier, later, rfl, rfl,
            hearlier.cons htype, hwrong⟩
      · exact .inr ⟨f, v, [], fields, [], values, rfl, rfl, rfl, htype⟩

/-- The first value of a wrong type is reported, with its field. -/
theorem FirstWrong.encode_eq {f : Field} {v : Value} (h : schema.FirstWrong values f v)
    (hlength : schema.length = values.length) :
    schema.encode values = .error (.typeMismatch f v.type) := by
  obtain ⟨before, after, earlier, later, rfl, rfl, hearlier, hwrong⟩ := h
  rw [encode, if_pos hlength, hearlier.encodeFields_append, encodeFields, if_neg hwrong]
  rfl

theorem encode_of_length_ne (h : schema.length ≠ values.length) :
    schema.encode values = .error (.fieldCount schema.length values.length) :=
  if_neg h

/-- Only values that fit are written. -/
theorem exists_encode_eq_ok_iff : (∃ b, schema.encode values = .ok b) ↔ schema.Typed values := by
  constructor
  · rintro ⟨b, hb⟩
    by_cases hlength : schema.length = values.length
    · rcases typed_or_firstWrong hlength with htyped | ⟨f, v, hwrong⟩
      · exact htyped
      · rw [hwrong.encode_eq hlength] at hb
        cases hb
    · rw [encode_of_length_ne hlength] at hb
      cases hb
  · intro h
    exact ⟨_, h.encode_eq⟩

end Wire.Schema

/-! ## Three views of a message -/

/-- Values that fit a schema are those of a record. -/
theorem Wire.Record.exists_of_typed {schema : Schema} {values : List Value}
    (h : schema.Typed values) : ∃ r : Record schema, r.values = values := by
  induction schema generalizing values with
  | nil => exact ⟨(), (List.map_eq_nil_iff.mp h).symm⟩
  | cons f fields ih =>
    cases values with
    | nil => cases h
    | cons v values =>
      obtain ⟨htype, htypes⟩ := List.cons.inj h
      obtain ⟨r, rfl⟩ := ih htypes
      cases hcarrier : Value.carrier? f.type v with
      | none => exact absurd htype (Value.carrier?_eq_none_iff.mp hcarrier)
      | some c =>
        obtain rfl := Value.carrier?_eq_some_iff.mp hcarrier
        exact ⟨(c, r), rfl⟩

namespace Message

theorem values_ofRecord (t : MessageType) (r : Record t.fields) :
    (ofRecord t r).values = .u16 t.code :: r.values := by
  cases t <;> rfl

theorem ofValues_values (t : MessageType) (echo : UInt16) (r : Record t.fields) :
    ofValues t (.u16 echo :: r.values) = .ok (ofRecord t r) := by
  have hlength : (Value.u16 echo :: r.values).length = t.schema.length :=
    congrArg Nat.succ r.length_values
  rw [ofValues, if_pos hlength, Record.ofFields_values]
  rfl

/-- The values of a message fit its schema, and so do those of its envelope. -/
theorem encode_values (m : Message) :
    ∃ envelope,
      Schema.encode [Payload.magicField, Payload.codeField] [.u16 Payload.magic, .u16 m.type.code] =
        .ok envelope ∧
      m.type.schema.encode m.values = .ok m.body ∧ m.payload = envelope ++ m.body :=
  ⟨_, rfl, m.typed_values.encode_eq, rfl⟩

end Message

/-- The bytes of a body end inside a field, or they are read as a message, whatever the code in
front and whatever follows the fields. -/
theorem Received.ofBody_cases (t : MessageType) (b : Bytes) :
    (∃ f ∈ t.schema, t.schema.decode b = .error (.truncated f) ∧
      ofBody t b = .error (.truncated f)) ∨
    ∃ (echo : UInt16) (r : Record t.fields) (rest : Bytes),
      t.schema.decode b = .ok (.u16 echo :: r.values, rest) ∧
        ofBody t b = .ok ⟨echo, .ofRecord t r⟩ := by
  have hecho : FieldType.decode MessageType.echo.type b =
      (Bytes.readUInt16 b).map fun p => (.u16 p.1, p.2) := rfl
  have hschema : t.schema.decode b = Schema.decode (MessageType.echo :: t.fields) b := rfl
  rw [hschema, Schema.decode, hecho, ofBody]
  cases hread : Bytes.readUInt16 b with
  | none => exact .inl ⟨MessageType.echo, List.mem_cons_self, rfl, rfl⟩
  | some p =>
    obtain ⟨echo, left⟩ := p
    dsimp only [Option.map_some]
    rcases t.fields.front_cases left with ⟨items, rest, hitems, rfl⟩ | ⟨f, items, hends⟩
    · obtain ⟨r, hr⟩ := Record.exists_of_typed hitems.typed
      refine .inr ⟨echo, r, rest, ?_, ?_⟩
      · rw [hitems.decode, ← hr]
      · rw [hitems.decode, ← hr]
        dsimp only
        rw [Record.ofFields_values]
    · have hmem : f ∈ t.fields := by
        obtain ⟨before, after, -, hfields, -⟩ := hends
        rw [hfields]
        exact List.mem_append_right _ List.mem_cons_self
      refine .inl ⟨f, List.mem_cons_of_mem _ hmem, ?_, ?_⟩ <;> rw [hends.decode]

/-! ## Totality -/

/-- **Totality.** Values are written exactly if they are as many as the fields and each is of its
field's type; else the error reports the count if it is wrong, and the first value of a wrong type
with its field if it is not. Every message is written. Bytes read as a body of any type are either
cut inside a field, which is then all that is reported, or a message of that type, with the values
that were read but for the code in front, which is the type's own. -/
theorem codec_total :
    (∀ (schema : Schema) (values : List Value),
      ((∃ b, schema.encode values = .ok b) ↔
        schema.length = values.length ∧ values.map Value.type = schema.map Field.type) ∧
      (schema.length ≠ values.length →
        schema.encode values = .error (.fieldCount schema.length values.length)) ∧
      (schema.length = values.length → values.map Value.type ≠ schema.map Field.type →
        ∃ before f after earlier v later, schema = before ++ f :: after ∧
          values = earlier ++ v :: later ∧ earlier.map Value.type = before.map Field.type ∧
          v.type ≠ f.type ∧ schema.encode values = .error (.typeMismatch f v.type))) ∧
    (∀ m : Message, ∃ envelope body,
      Schema.encode [Payload.magicField, Payload.codeField] [.u16 Payload.magic, .u16 m.type.code] =
        .ok envelope ∧
      m.type.schema.encode m.values = .ok body ∧ m.payload = envelope ++ body) ∧
    ∀ (t : MessageType) (b : Bytes),
      (∃ f ∈ t.schema, t.schema.decode b = .error (.truncated f) ∧
        Received.ofBody t b = .error (.truncated f)) ∨
      ∃ (echo : UInt16) (values : List Value) (rest : Bytes) (m : Message),
        t.schema.decode b = .ok (.u16 echo :: values, rest) ∧
          Message.ofValues t (.u16 echo :: values) = .ok m ∧
          Received.ofBody t b = .ok ⟨echo, m⟩ ∧ m.type = t ∧ m.values = .u16 t.code :: values := by
  refine ⟨fun schema values => ⟨?_, Schema.encode_of_length_ne, ?_⟩, fun m => ?_, fun t b => ?_⟩
  · rw [Schema.exists_encode_eq_ok_iff]
    exact ⟨fun h => ⟨h.length_eq, h⟩, fun h => h.2⟩
  · intro hlength hne
    rcases Schema.typed_or_firstWrong hlength with htyped | ⟨f, v, hwrong⟩
    · exact absurd htyped hne
    · have hencode := hwrong.encode_eq hlength
      obtain ⟨before, after, earlier, later, hschema, hvalues, hearlier, hne⟩ := hwrong
      exact ⟨before, f, after, earlier, v, later, hschema, hvalues, hearlier, hne, hencode⟩
  · obtain ⟨envelope, henvelope, hbody, hpayload⟩ := m.encode_values
    exact ⟨envelope, m.body, henvelope, hbody, hpayload⟩
  · rcases Received.ofBody_cases t b with hcut | ⟨echo, r, rest, hdecode, hbody⟩
    · exact .inl hcut
    · exact .inr ⟨echo, r.values, rest, .ofRecord t r, hdecode, Message.ofValues_values t echo r,
        hbody, Message.type_ofRecord t r, Message.values_ofRecord t r⟩

/-- Of two wrong values the first is reported, and a value too few comes before both. -/
theorem wrong_values_reported :
    (∃ (f : Field) (v : Value), Schema.encode [⟨"port", .u32⟩, ⟨"name", .string⟩, ⟨"map", .string⟩]
        [.u32 5479, .bool true, .u8 1] = .error (.typeMismatch f v.type) ∧
      f = ⟨"name", .string⟩ ∧ v.type = .bool) ∧
    Schema.encode [⟨"port", .u32⟩, ⟨"name", .string⟩, ⟨"map", .string⟩] [.u32 5479, .bool true] =
      .error (.fieldCount 3 2) := by
  constructor
  · obtain ⟨-, -, htypes⟩ := codec_total.1 [⟨"port", .u32⟩, ⟨"name", .string⟩, ⟨"map", .string⟩]
      [.u32 5479, .bool true, .u8 1]
    obtain ⟨_, f, _, _, v, _, -, -, -, -, hencode⟩ := htypes (by decide) (by decide)
    have hreported := hencode.symm.trans
      (rfl : _ = Except.error (SchemaError.typeMismatch ⟨"name", .string⟩ .bool))
    injection hreported with hreported
    injection hreported with hfield htype
    exact ⟨f, v, hencode, hfield, htype⟩
  · exact (codec_total.1 _ _).2.1 (by decide)

end GameLobby
