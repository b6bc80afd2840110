import GameLobby.Proofs.Wire.Items

/-!
# Reads within the buffer

`Schema.decode` takes bytes off the front of a list and so cannot go beyond its end. A `Cursor` can:
it reads from a buffer without asking what is left, and a read past the end is its own kind of
failure, `Halt.overrun`. `Cursor.record` reads a record this way, after a check before each read. It
comes to what `Schema.decode` comes to (`Cursor.run_record`), so the checks let no read past the
end, whatever the counts in the buffer say.
-/

namespace GameLobby.Wire

/-- Why a cursor stops. -/
inductive Halt where
  /-- A check says no. -/
  | refused (e : SchemaError)
  /-- A read goes past the end of the buffer. -/
  | overrun
  deriving DecidableEq, Repr

/-- Reads from a buffer, each of which moves on to the bytes behind it. -/
abbrev Cursor (α : Type) : Type := StateT Bytes (Except Halt) α

namespace Cursor

/-- A check that there are `n` more bytes. -/
def ensure (n : Nat) (e : SchemaError) : Cursor Unit := fun b =>
  if b.length < n then .error (.refused e) else .ok ((), b)

/-- The next `n` bytes. -/
def take (n : Nat) : Cursor Bytes := fun b =>
  if b.length < n then .error .overrun else .ok (b.take n, b.drop n)

/-- The next `n` bytes, after a check that they are there. -/
def demand (n : Nat) (e : SchemaError) : Cursor Bytes := do
  ensure n e
  take n

/-- A count, and as many bytes. -/
def counted (e : SchemaError) : Cursor Bytes := do
  let count ← demand 4 e
  demand (Bytes.uint32At count 0).toNat e

/-- The value of a field. -/
def field (f : Field) : Cursor Value :=
  match f.type with
  | .u8 => do
    let b ← demand 1 (.truncated f)
    return .u8 (b.getD 0 0)
  | .u16 => do
    let b ← demand 2 (.truncated f)
    return .u16 (Bytes.word16 (b.getD 0 0) (b.getD 1 0))
  | .u32 => do
    let b ← demand 4 (.truncated f)
    return .u32 (Bytes.uint32At b 0)
  | .bool => do
    let b ← demand 1 (.truncated f)
    return .bool (b.getD 0 0 != 0)
  | .string => do
    let s ← counted (.truncated f)
    return .string (unterminated s)
  | .bytes => do
    let s ← counted (.truncated f)
    return .bytes s

/-- The values of a record. -/
def record : Schema → Cursor (List Value)
  | [] => return []
  | f :: fields => do
    let v ← field f
    let values ← record fields
    return v :: values

/-! ## What the reads come to -/

variable {α β : Type} {b rest : Bytes} {e : SchemaError}

theorem run_bind_ok {c : Cursor α} {k : α → Cursor β} {a : α} (h : c.run b = .ok (a, rest)) :
    (c >>= k).run b = (k a).run rest := by
  rw [StateT.run_bind, h]
  rfl

theorem run_bind_error {c : Cursor α} {k : α → Cursor β} {halt : Halt}
    (h : c.run b = .error halt) : (c >>= k).run b = .error halt := by
  rw [StateT.run_bind, h]
  rfl

/-- Bytes that are there are read, and others are not asked for. -/
theorem run_demand (n : Nat) (e : SchemaError) (b : Bytes) :
    (demand n e).run b =
      match Bytes.splitAt? n b with
      | none => .error (.refused e)
      | some p => .ok p := by
  unfold demand Bytes.splitAt?
  by_cases hle : n ≤ b.length
  · have hcheck : (ensure n e).run b = .ok ((), b) := if_neg (by omega)
    rw [run_bind_ok hcheck, if_pos hle]
    exact if_neg (by omega)
  · have hcheck : (ensure n e).run b = .error (.refused e) := if_pos (by omega)
    rw [run_bind_error hcheck, if_neg hle]

theorem run_counted (e : SchemaError) (b : Bytes) :
    (counted e).run b =
      match readCounted b with
      | none => .error (.refused e)
      | some p => .ok p := by
  unfold counted readCounted
  match b with
  | [] | [_] | [_, _] | [_, _, _] => rfl
  | b₀ :: b₁ :: b₂ :: b₃ :: rest => exact run_demand (Bytes.word32 b₀ b₁ b₂ b₃).toNat e rest

/-- A field is read as it is off a list, and no read goes past the end. -/
theorem run_field (f : Field) (b : Bytes) :
    (field f).run b =
      match f.type.decode b with
      | none => .error (.refused (.truncated f))
      | some p => .ok p := by
  unfold field
  cases f.type with
  | u8 | bool =>
    match b with
    | [] => rfl
    | _ :: _ => rfl
  | u16 =>
    match b with
    | [] | [_] | _ :: _ :: _ => rfl
  | u32 =>
    match b with
    | [] | [_] | [_, _] | [_, _, _] | _ :: _ :: _ :: _ :: _ => rfl
  | string | bytes =>
    have hcounted := run_counted (.truncated f) b
    dsimp only
    rw [FieldType.decode]
    cases hread : readCounted b with
    | none =>
      rw [hread] at hcounted
      rw [run_bind_error hcounted]
      rfl
    | some p =>
      rw [hread] at hcounted
      rw [run_bind_ok hcounted]
      rfl

/-- A record is read as it is off a list: the checks come before the reads, so no read goes past the
end of the buffer. -/
theorem run_record (schema : Schema) (b : Bytes) :
    (record schema).run b =
      match schema.decode b with
      | .error e => .error (.refused e)
      | .ok p => .ok p := by
  induction schema generalizing b with
  | nil => rfl
  | cons f fields ih =>
    have hfield := run_field f b
    unfold record Schema.decode
    cases hread : f.type.decode b with
    | none =>
      rw [hread] at hfield
      rw [run_bind_error hfield]
    | some p =>
      obtain ⟨v, rest⟩ := p
      rw [hread] at hfield
      rw [run_bind_ok hfield]
      have hrest := ih rest
      dsimp only
      cases hfields : Schema.decode fields rest with
      | error e =>
        rw [hfields] at hrest
        rw [run_bind_error hrest]
      | ok q =>
        rw [hfields] at hrest
        rw [run_bind_ok hrest]
        rfl

end Cursor

end GameLobby.Wire
