import GameLobby.Wire.Field

/-!
# Records by schema

A record is the bytes of its values, one after the other in schema order. Writing checks that the
values fit the schema; reading takes one value for each field off the front and leaves what follows
the last. A record is refused for one of three reasons, `SchemaError`.
-/

namespace GameLobby.Wire

/-- Why values or bytes do not fit a schema. -/
inductive SchemaError where
  /-- The bytes run out inside a field. -/
  | truncated (field : Field)
  /-- A value has another type than its field. -/
  | typeMismatch (field : Field) (actual : FieldType)
  /-- There are not as many values as fields. -/
  | fieldCount (expected actual : Nat)
  deriving DecidableEq, Repr

/-- What an error says. -/
def SchemaError.message : SchemaError → String
  | .truncated f => "buffer exhausted reading field `" ++ f.name ++ "` (" ++ f.type.name ++ ")"
  | .typeMismatch f actual =>
    "field `" ++ f.name ++ "` is declared " ++ f.type.name ++ " but the value is " ++ actual.name
  | .fieldCount expected actual =>
    "schema declares " ++ toString expected ++ " fields but " ++ toString actual ++
      " values were supplied"

namespace Schema

/-- The bytes of as many values as there are fields, each of its field's type. -/
def encodeFields : Schema → List Value → Except SchemaError Bytes
  | f :: fields, v :: values =>
    if v.type = f.type then (v.encode ++ ·) <$> encodeFields fields values
    else .error (.typeMismatch f v.type)
  | _, _ => .ok []

/-- The bytes of a record. A wrong count is reported before a wrong type, and the first wrong type
before a later one. -/
def encode (schema : Schema) (values : List Value) : Except SchemaError Bytes :=
  if schema.length = values.length then encodeFields schema values
  else .error (.fieldCount schema.length values.length)

/-- The values of the record at the front, and the bytes after it. -/
def decode : Schema → Bytes → Except SchemaError (List Value × Bytes)
  | [], b => .ok ([], b)
  | f :: fields, b =>
    match f.type.decode b with
    | none => .error (.truncated f)
    | some (v, rest) =>
      match decode fields rest with
      | .error e => .error e
      | .ok (values, rest) => .ok (v :: values, rest)

end Schema

end GameLobby.Wire
