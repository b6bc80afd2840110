import GameLobby.Proofs.Wire.RoundTrip

/-!
# Items on the wire

A value does not say which bytes it was read from: every byte but 0 reads as true, and a string may
have come with a NUL or without. An `Item` is what lies on the wire for one field, byte for byte.

Reading a field finds the item in front, if there is one (`FieldType.decode_eq_some_iff`), and no
item is the start of another one for the same field (`Item.For.eq_of_append_eq`). So bytes either
start with items for all fields of a schema or end inside one of the fields, the first for which
there is no item (`Schema.front_cases`), and that is what reading the record comes to
(`Schema.Holds.decode`, `Schema.EndsIn.decode`).
-/

namespace GameLobby.Wire

/-- What lies on the wire for one field. -/
inductive Item where
  | u8 (n : UInt8)
  | u16 (n : UInt16)
  | u32 (n : UInt32)
  /-- The byte of a truth value. -/
  | bool (b : UInt8)
  /-- The counted bytes of a string. -/
  | string (s : Bytes)
  | bytes (s : Bytes)
  deriving DecidableEq, Repr

namespace Item

/-- The type of the field that an item is for. -/
def type : Item → FieldType
  | .u8 _ => .u8
  | .u16 _ => .u16
  | .u32 _ => .u32
  | .bool _ => .bool
  | .string _ => .string
  | .bytes _ => .bytes

/-- The bytes of an item. -/
def encode : Item → Bytes
  | .u8 n => [n]
  | .u16 n => Bytes.ofUInt16 n
  | .u32 n => Bytes.ofUInt32 n
  | .bool b => [b]
  | .string s => counted s
  | .bytes s => counted s

/-- The value that an item is read as. -/
def value : Item → Value
  | .u8 n => .u8 n
  | .u16 n => .u16 n
  | .u32 n => .u32 n
  | .bool b => .bool (b != 0)
  | .string s => .string (unterminated s)
  | .bytes s => .bytes s

/-- A count can say how long an item is. -/
def Short : Item → Prop
  | .string s => s.length < UInt32.size
  | .bytes s => s.length < UInt32.size
  | _ => True

/-- An item can lie on the wire for a field of type `t`. -/
def For (t : FieldType) (i : Item) : Prop :=
  i.type = t ∧ i.Short

@[simp] theorem type_value (i : Item) : i.value.type = i.type := by
  cases i <;> rfl

end Item

/-! ## One field -/

theorem readCounted_eq_some_iff {b s rest : Bytes} :
    readCounted b = some (s, rest) ↔ s.length < UInt32.size ∧ b = counted s ++ rest := by
  constructor
  · intro h
    unfold readCounted at h
    obtain ⟨⟨count, left⟩, hcount, hleft⟩ := Option.bind_eq_some_iff.mp h
    obtain rfl := Bytes.readUInt32_eq_some_iff.mp hcount
    obtain ⟨hlength, rfl⟩ := Bytes.splitAt?_eq_some_iff.mp hleft
    refine ⟨hlength ▸ count.toNat_lt_size, ?_⟩
    unfold counted
    rw [hlength, UInt32.ofNat_toNat, List.append_assoc]
  · rintro ⟨hshort, rfl⟩
    exact readCounted_counted s rest hshort

/-- An item is read as its value, and what follows it is left. -/
theorem Item.For.decode_encode {t : FieldType} {i : Item} (h : i.For t) (rest : Bytes) :
    t.decode (i.encode ++ rest) = some (i.value, rest) := by
  obtain ⟨rfl, hshort⟩ := h
  cases i with
  | u8 | bool => rfl
  | u16 n | u32 n => simp [type, encode, value, FieldType.decode]
  | string s | bytes s =>
    simp [type, encode, value, FieldType.decode, readCounted_counted s rest hshort]

/-- Reading a field finds an item for it in front. -/
theorem FieldType.decode_eq_some_iff {t : FieldType} {b rest : Bytes} {v : Value} :
    t.decode b = some (v, rest) ↔ ∃ i : Item, i.For t ∧ v = i.value ∧ b = i.encode ++ rest := by
  constructor
  · intro h
    unfold decode at h
    split at h
    · rename_i n _
      cases h
      exact ⟨.u8 n, ⟨rfl, trivial⟩, rfl, rfl⟩
    · obtain ⟨⟨n, left⟩, hread, heq⟩ := Option.map_eq_some_iff.mp h
      cases heq
      exact ⟨.u16 n, ⟨rfl, trivial⟩, rfl, Bytes.readUInt16_eq_some_iff.mp hread⟩
    · obtain ⟨⟨n, left⟩, hread, heq⟩ := Option.map_eq_some_iff.mp h
      cases heq
      exact ⟨.u32 n, ⟨rfl, trivial⟩, rfl, Bytes.readUInt32_eq_some_iff.mp hread⟩
    · rename_i b _
      cases h
      exact ⟨.bool b, ⟨rfl, trivial⟩, rfl, rfl⟩
    · obtain ⟨⟨s, left⟩, hread, heq⟩ := Option.map_eq_some_iff.mp h
      cases heq
      obtain ⟨hshort, hb⟩ := readCounted_eq_some_iff.mp hread
      exact ⟨.string s, ⟨rfl, hshort⟩, rfl, hb⟩
    · obtain ⟨⟨s, left⟩, hread, heq⟩ := Option.map_eq_some_iff.mp h
      cases heq
      obtain ⟨hshort, hb⟩ := readCounted_eq_some_iff.mp hread
      exact ⟨.bytes s, ⟨rfl, hshort⟩, rfl, hb⟩
    · cases h
  · rintro ⟨i, hi, rfl, rfl⟩
    exact hi.decode_encode rest

/-- Nothing is read only where there is no item in front. -/
theorem FieldType.decode_eq_none_iff {t : FieldType} {b : Bytes} :
    t.decode b = none ↔ ∀ i : Item, i.For t → ¬ i.encode <+: b := by
  constructor
  · rintro h i hi ⟨rest, rfl⟩
    rw [hi.decode_encode] at h
    cases h
  · intro h
    cases hread : t.decode b with
    | none => rfl
    | some p =>
      obtain ⟨i, hi, -, hb⟩ := decode_eq_some_iff.mp hread
      exact absurd ⟨p.2, hb.symm⟩ (h i hi)

/-- The bytes say where an item ends. -/
theorem Item.For.eq_of_append_eq {t : FieldType} {i j : Item} {r s : Bytes} (hi : i.For t)
    (hj : j.For t) (h : i.encode ++ r = j.encode ++ s) : i = j ∧ r = s := by
  obtain ⟨rfl, hishort⟩ := hi
  obtain ⟨htype, hjshort⟩ := hj
  have hcounted : ∀ x y : Bytes, x.length < UInt32.size → y.length < UInt32.size →
      counted x ++ r = counted y ++ s → x = y ∧ r = s := by
    intro x y hx hy heq
    have hread := congrArg readCounted heq
    rw [readCounted_counted x r hx, readCounted_counted y s hy] at hread
    exact Prod.mk.inj (Option.some.inj hread)
  cases i <;> cases j <;> cases htype
  case u8.u8 | bool.bool =>
    obtain ⟨rfl, hrest⟩ := List.cons.inj h
    exact ⟨rfl, hrest⟩
  case u16.u16 n m =>
    have hread := congrArg Bytes.readUInt16 h
    rw [encode, encode, Bytes.readUInt16_ofUInt16_append, Bytes.readUInt16_ofUInt16_append] at hread
    cases hread
    exact ⟨rfl, rfl⟩
  case u32.u32 n m =>
    have hread := congrArg Bytes.readUInt32 h
    rw [encode, encode, Bytes.readUInt32_ofUInt32_append, Bytes.readUInt32_ofUInt32_append] at hread
    cases hread
    exact ⟨rfl, rfl⟩
  case string.string x y =>
    obtain ⟨rfl, hrest⟩ := hcounted x y hishort hjshort h
    exact ⟨rfl, hrest⟩
  case bytes.bytes x y =>
    obtain ⟨rfl, hrest⟩ := hcounted x y hishort hjshort h
    exact ⟨rfl, hrest⟩

/-! ## Many fields -/

namespace Schema

/-- There is an item for each field. -/
inductive Holds : Schema → List Item → Prop where
  | nil : Holds [] []
  | cons {f : Field} {fields : Schema} {i : Item} {items : List Item} (hi : i.For f.type)
    (h : Holds fields items) : Holds (f :: fields) (i :: items)

/-- The bytes end inside field `f`: there are items for the fields before it, and none for it in
what follows them. -/
def EndsIn (schema : Schema) (b : Bytes) (f : Field) (items : List Item) : Prop :=
  ∃ before after left, schema = before ++ f :: after ∧ before.Holds items ∧
    b = items.flatMap Item.encode ++ left ∧ ∀ i : Item, i.For f.type → ¬ i.encode <+: left

variable {schema before after : Schema} {f : Field} {items items' : List Item} {b r s : Bytes}

/-- Items are read as their values, and reading goes on behind them. -/
theorem Holds.decode_append (h : before.Holds items) (fields : Schema) (left : Bytes) :
    (before ++ fields).decode (items.flatMap Item.encode ++ left) =
      match fields.decode left with
      | .error e => .error e
      | .ok (values, rest) => .ok (items.map Item.value ++ values, rest) := by
  induction h with
  | nil =>
    show fields.decode left = _
    cases fields.decode left <;> rfl
  | cons hi _ ih =>
    rw [List.cons_append, List.flatMap_cons, List.append_assoc, decode, hi.decode_encode]
    dsimp only
    rw [ih]
    cases fields.decode left <;> rfl

theorem Holds.decode (h : schema.Holds items) (rest : Bytes) :
    schema.decode (items.flatMap Item.encode ++ rest) = .ok (items.map Item.value, rest) := by
  have := h.decode_append [] rest
  rw [List.append_nil] at this
  rw [this, Schema.decode]
  dsimp only
  rw [List.append_nil]

theorem EndsIn.decode (h : schema.EndsIn b f items) : schema.decode b = .error (.truncated f) := by
  obtain ⟨before, after, left, rfl, hbefore, rfl, hnone⟩ := h
  rw [hbefore.decode_append, Schema.decode, FieldType.decode_eq_none_iff.mpr hnone]

/-- Bytes start with items for all fields, or they end inside a field. -/
theorem front_cases (schema : Schema) (b : Bytes) :
    (∃ items rest, schema.Holds items ∧ b = items.flatMap Item.encode ++ rest) ∨
      ∃ f items, schema.EndsIn b f items := by
  induction schema generalizing b with
  | nil => exact .inl ⟨[], b, .nil, rfl⟩
  | cons f fields ih =>
    cases hread : f.type.decode b with
    | none =>
      have hnone := FieldType.decode_eq_none_iff.mp hread
      exact .inr ⟨f, [], [], fields, b, rfl, .nil, rfl, hnone⟩
    | some p =>
      obtain ⟨i, hi, -, rfl⟩ := FieldType.decode_eq_some_iff.mp hread
      rcases ih p.2 with ⟨items, rest, hitems, hrest⟩ |
        ⟨g, items, before, after, left, rfl, hbefore, hleft, hnone⟩
      · refine .inl ⟨i :: items, rest, .cons hi hitems, ?_⟩
        rw [hrest, List.flatMap_cons, List.append_assoc]
      · refine .inr ⟨g, i :: items, f :: before, after, left, rfl, .cons hi hbefore, ?_, hnone⟩
        rw [hleft, List.flatMap_cons, List.append_assoc]

/-- A record is read where there are items for all fields. -/
theorem decode_eq_ok_iff {values : List Value} {rest : Bytes} :
    schema.decode b = .ok (values, rest) ↔
      ∃ items, schema.Holds items ∧ values = items.map Item.value ∧
        b = items.flatMap Item.encode ++ rest := by
  constructor
  · intro h
    rcases schema.front_cases b with ⟨items, left, hitems, rfl⟩ | ⟨f, items, hends⟩
    · rw [hitems.decode] at h
      cases h
      exact ⟨items, hitems, rfl, rfl⟩
    · rw [hends.decode] at h
      cases h
  · rintro ⟨items, hitems, rfl, rfl⟩
    exact hitems.decode rest

theorem Holds.typed (h : schema.Holds items) : schema.Typed (items.map Item.value) := by
  unfold Typed
  induction h with
  | nil => rfl
  | cons hi _ ih =>
    rw [List.map_cons, List.map_cons, List.map_cons, ih, Item.type_value, hi.1]

/-- Items for the first fields are the first of the items for all. -/
theorem Holds.exists_of_append_eq (hbefore : before.Holds items)
    (hall : (before ++ after).Holds items')
    (h : items.flatMap Item.encode ++ r = items'.flatMap Item.encode ++ s) :
    ∃ later, after.Holds later ∧ items' = items ++ later ∧
      r = later.flatMap Item.encode ++ s := by
  induction hbefore generalizing items' with
  | nil => exact ⟨items', hall, rfl, h⟩
  | cons hi _ ih =>
    obtain _ | ⟨hj, hrest⟩ := hall
    simp only [List.flatMap_cons, List.append_assoc] at h
    obtain ⟨rfl, htail⟩ := hi.eq_of_append_eq hj h
    obtain ⟨later, hlater, rfl, hr⟩ := ih hrest htail
    exact ⟨later, hlater, rfl, hr⟩

/-- The bytes determine the items. -/
theorem Holds.eq_of_append_eq (hi : schema.Holds items) (hj : schema.Holds items')
    (h : items.flatMap Item.encode ++ r = items'.flatMap Item.encode ++ s) : items = items' := by
  obtain ⟨later, hlater, rfl, -⟩ :=
    hi.exists_of_append_eq (schema.append_nil.symm ▸ hj) h
  cases hlater
  exact (List.append_nil items).symm

end Schema

end GameLobby.Wire
