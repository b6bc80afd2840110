import GameLobby.Wire.Record

/-!
# Values read back

A value that is written and read comes back as it was, except that a string loses one NUL at the end
if it has one (`Value.trimmed`). Counts take four bytes, so strings and byte strings have to be
short enough to be counted (`Value.Short`). Values that fit a schema are read back one after the
other, and what follows them is left (`Schema.Typed.decode_flatMap_encode`).
-/

namespace GameLobby.Wire

/-! ## One value -/

theorem unterminated_terminated (s : RawText) : unterminated (terminated s) = unterminated s := by
  unfold terminated
  split
  · rfl
  · rename_i hlast
    simp [unterminated, hlast]

theorem length_terminated_le (s : RawText) : (terminated s).length ≤ s.length + 1 := by
  unfold terminated
  split
  · exact Nat.le_succ _
  · exact Nat.le_of_eq (List.length_append ..)

theorem unterminated_eq_self_iff {s : RawText} : unterminated s = s ↔ s.getLast? ≠ some 0 := by
  unfold unterminated
  split
  · rename_i hlast
    refine iff_of_false (fun heq => ?_) (not_not_intro hlast)
    have hlength := congrArg List.length heq
    rw [List.length_dropLast] at hlength
    have hpos : 0 < s.length := by
      cases s with
      | nil => exact nomatch hlast
      | cons b s => exact Nat.succ_pos _
    omega
  · rename_i hlast
    exact iff_of_true rfl hlast

theorem readCounted_counted (b rest : Bytes) (h : b.length < UInt32.size) :
    readCounted (counted b ++ rest) = some (b, rest) := by
  have hcount : (UInt32.ofNat b.length).toNat = b.length := by
    rw [UInt32.toNat_ofNat']
    exact Nat.mod_eq_of_lt h
  unfold readCounted counted
  rw [List.append_assoc, Bytes.readUInt32_ofUInt32_append]
  show Bytes.splitAt? (UInt32.ofNat b.length).toNat (b ++ rest) = _
  rw [hcount, Bytes.splitAt?_append]

namespace Value

/-- What is read of a value that was written. -/
def trimmed : Value → Value
  | .string s => .string (unterminated s)
  | v => v

/-- A count can say how long a value is, with the NUL that a string may get. -/
def Short : Value → Prop
  | .string s => s.length + 1 < UInt32.size
  | .bytes b => b.length < UInt32.size
  | _ => True

instance (v : Value) : Decidable v.Short :=
  match v with
  | .string s => inferInstanceAs (Decidable (s.length + 1 < UInt32.size))
  | .bytes b => inferInstanceAs (Decidable (b.length < UInt32.size))
  | .u8 _ | .u16 _ | .u32 _ | .bool _ => isTrue trivial

/-- Only strings that end in NUL change. -/
theorem trimmed_eq_self_iff {v : Value} :
    v.trimmed = v ↔ ∀ s, v = .string s → s.getLast? ≠ some 0 := by
  cases v with
  | string s =>
    rw [trimmed, string.injEq, unterminated_eq_self_iff]
    exact ⟨fun h s' heq => (string.inj heq) ▸ h, fun h => h s rfl⟩
  | u8 | u16 | u32 | bool | bytes => exact iff_of_true rfl (fun s h => nomatch h)

theorem decode_encode (v : Value) (rest : Bytes) (h : v.Short) :
    v.type.decode (v.encode ++ rest) = some (v.trimmed, rest) := by
  cases v with
  | u8 => rfl
  | u16 n =>
    simp only [type, encode, FieldType.decode, Bytes.readUInt16_ofUInt16_append, Option.map_some,
      trimmed]
  | u32 n =>
    simp only [type, encode, FieldType.decode, Bytes.readUInt32_ofUInt32_append, Option.map_some,
      trimmed]
  | bool b => cases b <;> rfl
  | string s =>
    have hlength : (terminated s).length < UInt32.size :=
      Nat.lt_of_le_of_lt (length_terminated_le s) h
    simp only [type, encode, FieldType.decode, readCounted_counted _ _ hlength, Option.map_some,
      unterminated_terminated, trimmed]
  | bytes b =>
    simp only [type, encode, FieldType.decode, readCounted_counted _ _ h, Option.map_some, trimmed]

end Value

/-! ## Many values -/

namespace Schema

/-- There are as many values as fields, each of its field's type. -/
def Typed (schema : Schema) (values : List Value) : Prop :=
  values.map Value.type = schema.map Field.type

variable {schema : Schema} {values : List Value}

theorem Typed.length_eq (h : schema.Typed values) : schema.length = values.length := by
  have hlength := congrArg List.length h
  rw [List.length_map, List.length_map] at hlength
  exact hlength.symm

theorem Typed.cons {f : Field} {v : Value} (hv : v.type = f.type) (h : schema.Typed values) :
    Typed (f :: schema) (v :: values) := by
  unfold Typed at h ⊢
  rw [List.map_cons, List.map_cons, hv, h]

/-- Values that fit the first fields are written, and writing goes on behind them. -/
theorem Typed.encodeFields_append (h : schema.Typed values) (fields : Schema)
    (later : List Value) :
    encodeFields (schema ++ fields) (values ++ later) =
      (values.flatMap Value.encode ++ ·) <$> encodeFields fields later := by
  induction schema generalizing values with
  | nil =>
    obtain rfl := List.map_eq_nil_iff.mp h
    show encodeFields fields later = _
    cases encodeFields fields later <;> rfl
  | cons f before ih =>
    cases values with
    | nil => cases h
    | cons v values =>
      obtain ⟨htype, htypes⟩ := List.cons.inj h
      rw [List.cons_append, List.cons_append, encodeFields, if_pos htype, ih htypes]
      cases encodeFields fields later with
      | error e => rfl
      | ok b =>
        show Except.ok (v.encode ++ (values.flatMap Value.encode ++ b)) = Except.ok _
        rw [← List.append_assoc, ← List.flatMap_cons]

/-- Values that fit a schema can be written, one after the other. -/
theorem Typed.encode_eq (h : schema.Typed values) :
    schema.encode values = .ok (values.flatMap Value.encode) := by
  have hall := h.encodeFields_append [] []
  rw [List.append_nil, List.append_nil] at hall
  rw [encode, if_pos h.length_eq, hall]
  show Except.ok (values.flatMap Value.encode ++ []) = _
  rw [List.append_nil]

/-- Values that fit a schema are read back, and what follows them is left. -/
theorem Typed.decode_flatMap_encode (h : schema.Typed values) (hshort : ∀ v ∈ values, v.Short)
    (rest : Bytes) :
    schema.decode (values.flatMap Value.encode ++ rest) =
      .ok (values.map Value.trimmed, rest) := by
  induction schema generalizing values with
  | nil =>
    obtain rfl := List.map_eq_nil_iff.mp h
    rfl
  | cons f fields ih =>
    cases values with
    | nil => cases h
    | cons v values =>
      obtain ⟨htype, htypes⟩ := List.cons.inj h
      obtain ⟨hv, hvs⟩ := List.forall_mem_cons.mp hshort
      rw [List.flatMap_cons, List.append_assoc, decode, ← htype, v.decode_encode _ hv]
      dsimp only
      rw [ih htypes hvs]
      rfl

end Schema

/-- Values are read back unchanged exactly if no string ends in NUL. -/
theorem map_trimmed_eq_self_iff {values : List Value} :
    values.map Value.trimmed = values ↔ ∀ s, .string s ∈ values → s.getLast? ≠ some 0 := by
  have hid : values.map Value.trimmed = values ↔ ∀ v ∈ values, v.trimmed = v := by
    rw [← List.map_id values, List.map_map, List.map_eq_map_iff, List.map_id]
    rfl
  rw [hid]
  constructor
  · intro h s hs
    exact Value.trimmed_eq_self_iff.mp (h _ hs) s rfl
  · intro h v hv
    refine Value.trimmed_eq_self_iff.mpr fun s heq => ?_
    exact h s (heq ▸ hv)

/-! ## Records -/

/-- What a field reads after it was written. -/
def FieldType.trim : (t : FieldType) → t.Carrier → t.Carrier
  | .u8, n => n
  | .u16, n => n
  | .u32, n => n
  | .bool, b => b
  | .string, s => unterminated s
  | .bytes, b => b

theorem Value.trimmed_of (t : FieldType) (c : t.Carrier) :
    (Value.of t c).trimmed = Value.of t (t.trim c) := by
  cases t <;> rfl

namespace Record

variable {schema : Schema}

/-- What a record reads after it was written. -/
def trimmed : {schema : Schema} → Record schema → Record schema
  | [], () => ()
  | f :: _, (c, rest) => (f.type.trim c, trimmed rest)

theorem values_trimmed (r : Record schema) : r.trimmed.values = r.values.map Value.trimmed := by
  induction schema with
  | nil => rfl
  | cons f fields ih =>
    obtain ⟨c, r⟩ := r
    rw [trimmed, values, values, List.map_cons, Value.trimmed_of, ih]

theorem typed_values (r : Record schema) : schema.Typed r.values := by
  unfold Schema.Typed
  induction schema with
  | nil => rfl
  | cons f fields ih =>
    obtain ⟨c, r⟩ := r
    rw [values, List.map_cons, List.map_cons, Value.type_of, ih]

end Record

end GameLobby.Wire
