import GameLobby.Wire.Schema

/-!
# Typed records

A `Record` of a schema holds exactly what the schema's fields hold, so it always has a written
form (`Record.encode_values`). `Record.values` forgets the types and `Record.ofFields` checks them
again (`Record.ofFields_values`).
-/

namespace GameLobby.Wire

/-- What the fields of a schema hold, in order. -/
abbrev Record : Schema → Type
  | [] => Unit
  | f :: fields => f.type.Carrier × Record fields

namespace Record

/-- The values of a record. -/
def values : {schema : Schema} → Record schema → List Value
  | [], () => []
  | f :: _, (c, rest) => Value.of f.type c :: values rest

/-- The record with the given values, of which the first wrong one is reported. Values beyond the
last field are not looked at. -/
def ofFields : (schema : Schema) → List Value → Except SchemaError (Record schema)
  | [], _ => .ok ()
  | f :: fields, values =>
    match values with
    | [] => .error (.fieldCount (f :: fields).length 0)
    | v :: values =>
      match Value.carrier? f.type v with
      | none => .error (.typeMismatch f v.type)
      | some c => (fun r => (c, r)) <$> ofFields fields values

theorem length_values {schema : Schema} (r : Record schema) : r.values.length = schema.length := by
  induction schema with
  | nil => rfl
  | cons f fields ih =>
    obtain ⟨c, rest⟩ := r
    simp [values, ih]

theorem ofFields_values {schema : Schema} (r : Record schema) :
    ofFields schema r.values = .ok r := by
  induction schema with
  | nil => rfl
  | cons f fields ih =>
    obtain ⟨c, rest⟩ := r
    simp only [values, ofFields, Value.carrier?_of, ih]
    rfl

/-- A record's values fit its schema: its bytes are those of its values in order. -/
theorem encode_values {schema : Schema} (r : Record schema) :
    Schema.encode schema r.values = .ok (r.values.flatMap Value.encode) := by
  rw [Schema.encode, if_pos (length_values r).symm]
  induction schema with
  | nil => rfl
  | cons f fields ih =>
    obtain ⟨c, rest⟩ := r
    simp only [values, Schema.encodeFields, Value.type_of, if_true, ih]
    rfl

end Record

end GameLobby.Wire
