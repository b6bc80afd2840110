import GameLobby.Proofs.Wire.Items

/-!
# Canonical bytes

Several bytes read as true, and a string reads the same with a NUL at its end and without. What is
written for the values that were read is therefore not always what they were read from. An item is
written as `Item.rewritten`, which is the item itself exactly if it is canonical
(`Item.rewritten_eq_self_iff`), and longer or shorter by a NUL at most
(`Item.length_encode_rewritten`). For a whole record this is `Schema.encode_of_decode_eq_ok`.
-/

namespace GameLobby.Wire

/-! ## One item -/

namespace Item

/-- A truth value is 0 or 1, and a string ends in one NUL and no more. -/
def Canonical : Item → Prop
  | .bool b => b = 0 ∨ b = 1
  | .string s => [0] <:+ s ∧ ¬ [0, 0] <:+ s
  | _ => True

/-- A string without a NUL at its end, such as the empty one. -/
def unended : Item → Bool
  | .string s => ! decide ([0] <:+ s)
  | _ => false

/-- A string with two NULs at its end, or more. -/
def doublyEnded : Item → Bool
  | .string s => decide ([0, 0] <:+ s)
  | _ => false

/-- The item that is written for the value that an item is read as. -/
def rewritten : Item → Item
  | .bool b => .bool (if b != 0 then 1 else 0)
  | .string s => .string (terminated (unterminated s))
  | i => i

theorem encode_value (i : Item) : i.value.encode = i.rewritten.encode := by
  cases i <;> rfl

end Item

theorem zero_suffix_iff {s : Bytes} : [0] <:+ s ↔ s.getLast? = some 0 := by
  rw [List.getLast?_eq_some_iff]
  constructor
  · rintro ⟨t, rfl⟩
    exact ⟨t, rfl⟩
  · rintro ⟨t, rfl⟩
    exact ⟨t, rfl⟩

/-- What becomes of a string that is read and written, by the NULs at its end: it gets one if it has
none, and loses one if it has two or more. -/
theorem terminated_unterminated_cases (s : Bytes) :
    (¬ [0] <:+ s ∧ ¬ [0, 0] <:+ s ∧ terminated (unterminated s) = s ++ [0]) ∨
      ([0] <:+ s ∧ ¬ [0, 0] <:+ s ∧ terminated (unterminated s) = s) ∨
      ([0] <:+ s ∧ [0, 0] <:+ s ∧ terminated (unterminated s) ++ [0] = s) := by
  by_cases hend : [0] <:+ s
  · right
    obtain ⟨t, rfl⟩ := hend
    have hread : unterminated (t ++ [0]) = t := by
      rw [unterminated, if_pos List.getLast?_concat, List.dropLast_concat]
    have hdouble : [0] ++ [0] <:+ t ++ [0] ↔ [0] <:+ t := List.suffix_append_self_iff
    rw [List.singleton_append] at hdouble
    rw [hread, hdouble, terminated]
    by_cases hlast : [0] <:+ t
    · rw [if_pos (zero_suffix_iff.mp hlast)]
      exact .inr ⟨⟨t, rfl⟩, hlast, rfl⟩
    · rw [if_neg (mt zero_suffix_iff.mpr hlast)]
      exact .inl ⟨⟨t, rfl⟩, hlast, rfl⟩
  · left
    have hlast : s.getLast? ≠ some 0 := mt zero_suffix_iff.mpr hend
    refine ⟨hend, ?_, ?_⟩
    · rintro ⟨t, rfl⟩
      exact hend ⟨t ++ [0], List.append_assoc t [0] [0]⟩
    · rw [unterminated, if_neg hlast, terminated, if_neg hlast]

namespace Item

/-- Canonical items are written as they were read, and others are not. -/
theorem rewritten_eq_self_iff (i : Item) : i.rewritten = i ↔ i.Canonical := by
  cases i with
  | bool b =>
    rw [rewritten, Item.bool.injEq, Canonical]
    by_cases hb : b = 0
    · subst hb
      decide
    · rw [if_pos (bne_iff_ne.mpr hb)]
      exact ⟨fun h => .inr h.symm, fun h => (h.resolve_left hb).symm⟩
  | string s =>
    rw [rewritten, Item.string.injEq, Canonical]
    rcases terminated_unterminated_cases s with ⟨hend, -, heq⟩ | ⟨hend, hdouble, heq⟩ |
      ⟨-, hdouble, heq⟩
    · refine iff_of_false (fun hs => ?_) (fun hs => hend hs.1)
      have hlength := congrArg List.length (heq.symm.trans hs)
      rw [List.length_append, List.length_singleton] at hlength
      omega
    · exact iff_of_true heq ⟨hend, hdouble⟩
    · refine iff_of_false (fun hs => ?_) (fun hs => hs.2 hdouble)
      rw [hs] at heq
      have hlength := congrArg List.length heq
      rw [List.length_append, List.length_singleton] at hlength
      omega
  | u8 | u16 | u32 | bytes => exact iff_of_true rfl trivial

/-- An item gets longer by the NUL that is added and shorter by the one that is dropped. -/
theorem length_encode_rewritten (i : Item) :
    i.rewritten.encode.length + i.doublyEnded.toNat = i.encode.length + i.unended.toNat := by
  cases i with
  | string s =>
    simp only [rewritten, doublyEnded, unended, encode, counted, List.length_append,
      Bytes.length_ofUInt32]
    rcases terminated_unterminated_cases s with ⟨hend, hdouble, heq⟩ | ⟨hend, hdouble, heq⟩ |
      ⟨hend, hdouble, heq⟩
    · rw [heq, decide_eq_false hend, decide_eq_false hdouble, List.length_append]
      exact Nat.add_assoc ..
    · rw [heq, decide_eq_true hend, decide_eq_false hdouble]
      rfl
    · have hlength := congrArg List.length heq
      rw [List.length_append] at hlength
      rw [← hlength, decide_eq_true hend, decide_eq_true hdouble]
      exact Nat.add_assoc ..
  | u8 | u16 | u32 | bool | bytes => rfl

/-- What is written for an item can be read again, if a count can say one more than how long the
item is. -/
theorem For.rewritten {t : FieldType} {i : Item} (h : i.For t)
    (hlt : i.encode.length < UInt32.size - 1) : i.rewritten.For t := by
  obtain ⟨rfl, hshort⟩ := h
  refine ⟨by cases i <;> rfl, ?_⟩
  cases i with
  | string s =>
    have hlength := length_encode_rewritten (.string s)
    have hle := (Item.string s).unended.toNat_le
    simp only [Item.rewritten, encode, counted, List.length_append, Bytes.length_ofUInt32]
      at hlength hlt
    show (terminated (unterminated s)).length < UInt32.size
    omega
  | bytes => exact hshort
  | u8 | u16 | u32 | bool => trivial

end Item

/-! ## Many items -/

theorem flatMap_encode_value (items : List Item) :
    (items.map Item.value).flatMap Value.encode =
      (items.map Item.rewritten).flatMap Item.encode := by
  rw [List.flatMap_map, List.flatMap_map]
  exact congrArg (items.flatMap ·) (funext Item.encode_value)

theorem length_flatMap_encode_rewritten (items : List Item) :
    ((items.map Item.rewritten).flatMap Item.encode).length + items.countP Item.doublyEnded =
      (items.flatMap Item.encode).length + items.countP Item.unended := by
  induction items with
  | nil => rfl
  | cons i items ih =>
    have hi := i.length_encode_rewritten
    have hcount : ∀ c : Bool, (if c then 1 else 0) = c.toNat := fun c => (cond_eq_ite c 1 0).symm
    rw [List.map_cons, List.flatMap_cons, List.flatMap_cons, List.length_append,
      List.length_append, List.countP_cons, List.countP_cons, hcount, hcount]
    omega

namespace Schema

variable {schema : Schema} {items : List Item} {b rest : Bytes} {values : List Value}

theorem Holds.rewritten (h : schema.Holds items)
    (hlt : (items.flatMap Item.encode).length < UInt32.size - 1) :
    schema.Holds (items.map Item.rewritten) := by
  induction h with
  | nil => exact .nil
  | cons hi _ ih =>
    rw [List.flatMap_cons, List.length_append] at hlt
    exact .cons (hi.rewritten (by omega)) (ih (by omega))

/-- Values that were read can be written. The bytes are those that the values were read from exactly
if all items were canonical. Each string that had no NUL at its end makes them longer by one, and
each that had two or more makes them shorter by one. -/
theorem encode_of_decode_eq_ok (hread : schema.decode b = .ok (values, rest))
    (hlt : b.length < UInt32.size - 1) :
    ∃ items out, schema.Holds items ∧ values = items.map Item.value ∧
      b = items.flatMap Item.encode ++ rest ∧
      schema.encode values = .ok out ∧
      (out = items.flatMap Item.encode ↔ ∀ i ∈ items, i.Canonical) ∧
      out.length + items.countP Item.doublyEnded =
        (items.flatMap Item.encode).length + items.countP Item.unended := by
  obtain ⟨items, hitems, rfl, rfl⟩ := decode_eq_ok_iff.mp hread
  have hshort : (items.flatMap Item.encode).length < UInt32.size - 1 := by
    rw [List.length_append] at hlt
    omega
  have hwrite := hitems.typed.encode_eq
  rw [flatMap_encode_value] at hwrite
  refine ⟨items, _, hitems, rfl, rfl, hwrite, ?_, length_flatMap_encode_rewritten items⟩
  calc (items.map Item.rewritten).flatMap Item.encode = items.flatMap Item.encode
      ↔ items.map Item.rewritten = items :=
        ⟨fun h => (hitems.rewritten hshort).eq_of_append_eq hitems (congrArg (· ++ []) h),
          fun h => congrArg (·.flatMap Item.encode) h⟩
    _ ↔ ∀ i ∈ items, i.rewritten = i := by
        rw [← List.map_inj_left (g := fun i => i), List.map_id']
    _ ↔ ∀ i ∈ items, i.Canonical := forall₂_congr fun i _ => i.rewritten_eq_self_iff

/-- Of a 7 that reads as true, a string with two NULs and an empty one nothing comes out as it was,
though as many bytes do. -/
theorem encode_of_decode_eq_ok_of_loose :
    let schema : Schema := [⟨"ready", .bool⟩, ⟨"name", .string⟩, ⟨"info", .string⟩]
    let b : Bytes := [7, 3, 0, 0, 0, 65, 0, 0, 0, 0, 0, 0, 9]
    let values : List Value := [.bool true, .string [65, 0], .string []]
    schema.decode b = .ok (values, [9]) ∧ b.length < UInt32.size - 1 ∧
      ∃ items out, schema.Holds items ∧ values = items.map Item.value ∧
        b = items.flatMap Item.encode ++ [9] ∧
        schema.encode values = .ok out ∧
        (out = items.flatMap Item.encode ↔ ∀ i ∈ items, i.Canonical) ∧
        out.length + items.countP Item.doublyEnded =
          (items.flatMap Item.encode).length + items.countP Item.unended :=
  ⟨rfl, by decide, encode_of_decode_eq_ok rfl (by decide)⟩

end Schema

end GameLobby.Wire
