import GameLobby.Text.Utf8

/-!
# Fields

The six types of field a record can have, their values, and the bytes of one value.

| type     | bytes                                                                      |
|----------|----------------------------------------------------------------------------|
| `u8`     | one byte                                                                   |
| `u16`    | two bytes, low byte first                                                  |
| `u32`    | four bytes, low byte first                                                 |
| `bool`   | one byte, written as 0 or 1; every byte but 0 reads as true                |
| `string` | a `u32` count, then that many bytes; written with a NUL at the end, and read with one NUL taken off the end |
| `bytes`  | a `u32` count, then that many bytes                                        |
-/

namespace GameLobby

/-- Text in whatever code page its author uses, without the NUL that ends it on the wire. It is
kept and passed on as bytes. -/
abbrev RawText := Bytes

namespace Wire

/-- The type of a field. -/
inductive FieldType where
  | u8
  | u16
  | u32
  | bool
  | string
  | bytes
  deriving DecidableEq, Repr, Inhabited

/-- The name of a type. -/
def FieldType.name : FieldType → String
  | .u8 => "u8"
  | .u16 => "u16"
  | .u32 => "u32"
  | .bool => "bool"
  | .string => "string"
  | .bytes => "bytes"

/-- What a field of a type holds. -/
abbrev FieldType.Carrier : FieldType → Type
  | .u8 => UInt8
  | .u16 => UInt16
  | .u32 => UInt32
  | .bool => Bool
  | .string => RawText
  | .bytes => Bytes

/-- A named field. -/
structure Field where
  name : String
  type : FieldType
  deriving DecidableEq, Repr, Inhabited

/-- The fields of a record, in wire order. -/
abbrev Schema := List Field

/-- A value of one of the types. -/
inductive Value where
  | u8 (n : UInt8)
  | u16 (n : UInt16)
  | u32 (n : UInt32)
  | bool (b : Bool)
  | string (s : RawText)
  | bytes (b : Bytes)
  deriving DecidableEq, Repr, Inhabited

namespace Value

/-- The type of a value. -/
def type : Value → FieldType
  | .u8 _ => .u8
  | .u16 _ => .u16
  | .u32 _ => .u32
  | .bool _ => .bool
  | .string _ => .string
  | .bytes _ => .bytes

/-- What a type holds, as a value. -/
def of : (t : FieldType) → t.Carrier → Value
  | .u8, n => .u8 n
  | .u16, n => .u16 n
  | .u32, n => .u32 n
  | .bool, b => .bool b
  | .string, s => .string s
  | .bytes, b => .bytes b

/-- What a value of type `t` holds. -/
def carrier? : (t : FieldType) → Value → Option t.Carrier
  | .u8, .u8 n => some n
  | .u16, .u16 n => some n
  | .u32, .u32 n => some n
  | .bool, .bool b => some b
  | .string, .string s => some s
  | .bytes, .bytes b => some b
  | _, _ => none

@[simp] theorem type_of (t : FieldType) (c : t.Carrier) : (of t c).type = t := by
  cases t <;> rfl

@[simp] theorem carrier?_of (t : FieldType) (c : t.Carrier) : carrier? t (of t c) = some c := by
  cases t <;> rfl

theorem carrier?_eq_some_iff {t : FieldType} {v : Value} {c : t.Carrier} :
    carrier? t v = some c ↔ v = of t c := by
  cases t <;> cases v <;> simp [carrier?, of]

theorem carrier?_eq_none_iff {t : FieldType} {v : Value} : carrier? t v = none ↔ v.type ≠ t := by
  cases t <;> cases v <;> simp [carrier?, type]

/-- The zero, false or empty value of a type. -/
def default : FieldType → Value
  | .u8 => .u8 0
  | .u16 => .u16 0
  | .u32 => .u32 0
  | .bool => .bool false
  | .string => .string []
  | .bytes => .bytes []

end Value

/-! ## The bytes of one value -/

/-- A count and that many bytes. -/
def counted (b : Bytes) : Bytes :=
  Bytes.ofUInt32 (UInt32.ofNat b.length) ++ b

/-- The bytes of a string with a NUL at the end: the one it has, or a new one. -/
def terminated (s : RawText) : Bytes :=
  if s.getLast? = some 0 then s else s ++ [0]

/-- The bytes of a string without the NUL at the end, if it has one. -/
def unterminated (b : Bytes) : RawText :=
  if b.getLast? = some 0 then b.dropLast else b

/-- The bytes of a value. -/
def Value.encode : Value → Bytes
  | .u8 n => [n]
  | .u16 n => Bytes.ofUInt16 n
  | .u32 n => Bytes.ofUInt32 n
  | .bool b => [if b then 1 else 0]
  | .string s => counted (terminated s)
  | .bytes b => counted b

/-- Counted bytes at the front, and the rest. -/
def readCounted (b : Bytes) : Option (Bytes × Bytes) := do
  let (count, rest) ← Bytes.readUInt32 b
  Bytes.splitAt? count.toNat rest

/-- The value of a type at the front, and the rest; nothing if the bytes run out. -/
def FieldType.decode : FieldType → Bytes → Option (Value × Bytes)
  | .u8, b :: rest => some (.u8 b, rest)
  | .u16, b => (Bytes.readUInt16 b).map fun (n, rest) => (.u16 n, rest)
  | .u32, b => (Bytes.readUInt32 b).map fun (n, rest) => (.u32 n, rest)
  | .bool, b :: rest => some (.bool (b != 0), rest)
  | .string, b => (readCounted b).map fun (s, rest) => (.string (unterminated s), rest)
  | .bytes, b => (readCounted b).map fun (s, rest) => (.bytes s, rest)
  | _, [] => none

end Wire

end GameLobby
