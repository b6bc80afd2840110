import GameLobby.Proofs.Wire.Cursor

/-!
# The least prefix

Reading a record takes the bytes that it needs and no others. What follows them is left as it is,
and any cut before their end is noticed, in the field that it falls into. Where the bytes run out,
the fields before the one that is cut are read the same however the bytes go on.

The main statement is `Schema.decode_least_prefix`. It rests on `Schema.EndsIn.exists_next`: where
bytes end inside a field and go on as items, the end falls into the item for that field.
-/

namespace GameLobby.Wire.Schema

variable {schema : Schema} {f : Field} {items done : List Item} {b more rest : Bytes}

theorem Holds.length_eq (h : schema.Holds items) : items.length = schema.length := by
  induction h with
  | nil => rfl
  | cons _ _ ih => rw [List.length_cons, List.length_cons, ih]

/-- Byte `n` of the items belongs to the one for field `f`: the items before it are over by then and
it is not. -/
def CutAt (schema : Schema) (items : List Item) (n : Nat) (f : Field) : Prop :=
  ∃ done i later, items = done ++ i :: later ∧ schema[done.length]? = some f ∧
    (done.flatMap Item.encode).length ≤ n ∧ n < ((done ++ [i]).flatMap Item.encode).length

/-- Where bytes that end inside a field go on as items, the item for that field is the one that is
cut. -/
theorem EndsIn.exists_next (h : schema.EndsIn b f done) (hitems : schema.Holds items)
    (heq : b ++ more = items.flatMap Item.encode ++ rest) :
    ∃ i later, items = done ++ i :: later ∧ schema[done.length]? = some f ∧
      (done.flatMap Item.encode).length ≤ b.length ∧
      b.length < ((done ++ [i]).flatMap Item.encode).length := by
  obtain ⟨before, after, left, rfl, hbefore, rfl, hnone⟩ := h
  rw [List.append_assoc] at heq
  obtain ⟨later, hlater, rfl, hleft⟩ := hbefore.exists_of_append_eq hitems heq
  cases hlater with
  | @cons _ _ i later hi _ =>
    rw [List.flatMap_cons, List.append_assoc] at hleft
    -- an item that fits into what is left would have been found there
    have hcut : left.length < i.encode.length := by
      apply Nat.lt_of_not_le
      intro hle
      exact hnone i hi (List.prefix_of_prefix_length_le ⟨_, hleft.symm⟩ ⟨more, rfl⟩ hle)
    refine ⟨i, later, rfl, ?_, ?_, ?_⟩
    · rw [hbefore.length_eq, List.getElem?_append_right (Nat.le_refl _), Nat.sub_self]
      rfl
    · rw [List.length_append]
      omega
    · simp only [List.flatMap_append, List.length_append, List.flatMap_singleton]
      omega

/-- Bytes that stop short of the end of the items are refused, for the field that the cut falls
into. -/
theorem Holds.decode_take (hitems : schema.Holds items) {k : Nat}
    (hk : k < (items.flatMap Item.encode).length) :
    ∃ f, schema.CutAt items k f ∧
      schema.decode ((items.flatMap Item.encode).take k) = .error (.truncated f) := by
  have hlength : ((items.flatMap Item.encode).take k).length = k :=
    List.length_take_of_le (Nat.le_of_lt hk)
  have hall : (items.flatMap Item.encode).take k ++ (items.flatMap Item.encode).drop k =
      items.flatMap Item.encode ++ [] := by
    rw [List.take_append_drop, List.append_nil]
  rcases schema.front_cases ((items.flatMap Item.encode).take k) with
    ⟨items', rest, hitems', htake⟩ | ⟨f, done, hends⟩
  -- items for all fields are all the items there are, which are longer
  · rw [htake, List.append_assoc] at hall
    have hsame := hitems'.eq_of_append_eq hitems hall
    rw [htake, hsame, List.length_append] at hlength
    omega
  · obtain ⟨i, later, hsplit, hfield, hle, hlt⟩ := hends.exists_next hitems hall
    rw [hlength] at hle hlt
    exact ⟨f, ⟨done, i, later, hsplit, hfield, hle, hlt⟩, hends.decode⟩

/-- However bytes go on that end inside a field, the fields before it have the values that they
have so far. -/
theorem EndsIn.values_prefix (h : schema.EndsIn b f done) {values : List Value}
    (hread : schema.decode (b ++ more) = .ok (values, rest)) :
    done.map Item.value <+: values := by
  obtain ⟨items, hitems, rfl, heq⟩ := decode_eq_ok_iff.mp hread
  obtain ⟨i, later, rfl, -⟩ := h.exists_next hitems heq
  exact ⟨(i :: later).map Item.value, List.map_append.symm⟩

/-- A record is read off the first `n` bytes for some `n`, or the bytes end inside a field.

Where it is read, the same values come from these bytes whatever follows them, which is then what is
left, and with fewer bytes the record is refused for the field that the cut falls into. Where it is
not read, it is refused for the first field that there is no item for, and any bytes that go on from
these and hold a record agree on the fields before that one. Reads from a buffer come to the same,
and none goes past its end. -/
theorem decode_least_prefix (schema : Schema) (b : Bytes) :
    (∃ n items, n ≤ b.length ∧ schema.Holds items ∧ b.take n = items.flatMap Item.encode ∧
      schema.decode b = .ok (items.map Item.value, b.drop n) ∧
      (Cursor.record schema).run b = .ok (items.map Item.value, b.drop n) ∧
      (∀ r, schema.decode (b.take n ++ r) = .ok (items.map Item.value, r)) ∧
      ∀ k < n, ∃ f, schema.CutAt items k f ∧
        schema.decode (b.take k) = .error (.truncated f)) ∨
    ∃ f items, schema.EndsIn b f items ∧
      schema.decode b = .error (.truncated f) ∧
      (Cursor.record schema).run b = .error (.refused (.truncated f)) ∧
      ∀ more values rest, schema.decode (b ++ more) = .ok (values, rest) →
        items.map Item.value <+: values := by
  rcases schema.front_cases b with ⟨items, rest, hitems, rfl⟩ | ⟨f, items, hends⟩
  · left
    have hread := hitems.decode rest
    refine ⟨(items.flatMap Item.encode).length, items, ?_, hitems, List.take_left, ?_, ?_, ?_, ?_⟩
    · rw [List.length_append]
      omega
    · rw [hread, List.drop_left]
    · rw [Cursor.run_record, hread, List.drop_left]
    · intro r
      rw [List.take_left, hitems.decode]
    · intro k hk
      rw [List.take_append_of_le_length (Nat.le_of_lt hk)]
      exact hitems.decode_take hk
  · right
    have hread := hends.decode
    refine ⟨f, items, hends, hread, ?_, ?_⟩
    · rw [Cursor.run_record, hread]
    · intro more values rest hmore
      exact hends.values_prefix hmore

end GameLobby.Wire.Schema
