/-!
# Bytes

Byte strings and the numbers inside them. Every number on the wire is little-endian: the low byte
comes first. `readUInt16` and `readUInt32` take a number off the front of a byte string and give
the rest. They undo `ofUInt16` and `ofUInt32`, and what they read is the bytes of the number that
they give (`readUInt16_eq_some_iff`, `readUInt32_eq_some_iff`). `uint32At` finds a number in its
place (`uint32At_of_drop_eq`, `ofUInt32_uint32At`).
-/

namespace GameLobby

/-- A byte string. -/
abbrev Bytes := List UInt8

namespace Bytes

/-! ## Little-endian numbers -/

/-- The two bytes of a number, low byte first. -/
def ofUInt16 (n : UInt16) : Bytes :=
  [UInt8.ofNat n.toNat, UInt8.ofNat (n.toNat / 256)]

/-- The four bytes of a number, low byte first. -/
def ofUInt32 (n : UInt32) : Bytes :=
  [UInt8.ofNat n.toNat, UInt8.ofNat (n.toNat / 256), UInt8.ofNat (n.toNat / 65536),
    UInt8.ofNat (n.toNat / 16777216)]

/-- The number whose bytes are `a`, `b`, low byte first. -/
def word16 (a b : UInt8) : UInt16 :=
  UInt16.ofNat (a.toNat + 256 * b.toNat)

/-- The number whose bytes are `a`, `b`, `c`, `d`, low byte first. -/
def word32 (a b c d : UInt8) : UInt32 :=
  UInt32.ofNat (a.toNat + 256 * b.toNat + 65536 * c.toNat + 16777216 * d.toNat)

/-- The 16-bit number at the front, and the rest. -/
def readUInt16 : Bytes → Option (UInt16 × Bytes)
  | a :: b :: rest => some (word16 a b, rest)
  | _ => none

/-- The 32-bit number at the front, and the rest. -/
def readUInt32 : Bytes → Option (UInt32 × Bytes)
  | a :: b :: c :: d :: rest => some (word32 a b c d, rest)
  | _ => none

/-- The 32-bit number whose first byte is byte `i`. -/
def uint32At (b : Bytes) (i : Nat) : UInt32 :=
  word32 (b.getD i 0) (b.getD (i + 1) 0) (b.getD (i + 2) 0) (b.getD (i + 3) 0)

@[simp] theorem length_ofUInt16 (n : UInt16) : (ofUInt16 n).length = 2 := rfl

@[simp] theorem length_ofUInt32 (n : UInt32) : (ofUInt32 n).length = 4 := rfl

theorem word16_ofUInt16 (n : UInt16) :
    word16 (UInt8.ofNat n.toNat) (UInt8.ofNat (n.toNat / 256)) = n := by
  have hn := n.toNat_lt
  apply UInt16.toNat_inj.mp
  simp only [word16, UInt16.toNat_ofNat', UInt8.toNat_ofNat']
  omega

theorem word32_ofUInt32 (n : UInt32) :
    word32 (UInt8.ofNat n.toNat) (UInt8.ofNat (n.toNat / 256)) (UInt8.ofNat (n.toNat / 65536))
      (UInt8.ofNat (n.toNat / 16777216)) = n := by
  have hn := n.toNat_lt
  apply UInt32.toNat_inj.mp
  simp only [word32, UInt32.toNat_ofNat', UInt8.toNat_ofNat']
  omega

@[simp] theorem readUInt16_ofUInt16_append (n : UInt16) (rest : Bytes) :
    readUInt16 (ofUInt16 n ++ rest) = some (n, rest) := by
  show some (word16 _ _, rest) = _
  rw [word16_ofUInt16]

@[simp] theorem readUInt32_ofUInt32_append (n : UInt32) (rest : Bytes) :
    readUInt32 (ofUInt32 n ++ rest) = some (n, rest) := by
  show some (word32 _ _ _ _, rest) = _
  rw [word32_ofUInt32]

theorem ofUInt16_word16 (a b : UInt8) : ofUInt16 (word16 a b) = [a, b] := by
  have ha := a.toNat_lt
  have hb := b.toNat_lt
  simp only [ofUInt16, word16, UInt16.toNat_ofNat', List.cons.injEq, and_true]
  refine ⟨?_, ?_⟩ <;> refine UInt8.toNat_inj.mp ?_ <;> rw [UInt8.toNat_ofNat'] <;> omega

theorem ofUInt32_word32 (a b c d : UInt8) : ofUInt32 (word32 a b c d) = [a, b, c, d] := by
  have ha := a.toNat_lt
  have hb := b.toNat_lt
  have hc := c.toNat_lt
  have hd := d.toNat_lt
  simp only [ofUInt32, word32, UInt32.toNat_ofNat', List.cons.injEq, and_true]
  refine ⟨?_, ?_, ?_, ?_⟩ <;> refine UInt8.toNat_inj.mp ?_ <;> rw [UInt8.toNat_ofNat'] <;> omega

theorem readUInt16_eq_some_iff {b rest : Bytes} {n : UInt16} :
    readUInt16 b = some (n, rest) ↔ b = ofUInt16 n ++ rest := by
  constructor
  · intro h
    unfold readUInt16 at h
    split at h
    · cases h
      rw [ofUInt16_word16]
      rfl
    · cases h
  · rintro rfl
    exact readUInt16_ofUInt16_append n rest

theorem readUInt32_eq_some_iff {b rest : Bytes} {n : UInt32} :
    readUInt32 b = some (n, rest) ↔ b = ofUInt32 n ++ rest := by
  constructor
  · intro h
    unfold readUInt32 at h
    split at h
    · cases h
      rw [ofUInt32_word32]
      rfl
    · cases h
  · rintro rfl
    exact readUInt32_ofUInt32_append n rest

/-- A number is found where it was written. -/
theorem uint32At_of_drop_eq {b rest : Bytes} {i : Nat} {n : UInt32}
    (h : b.drop i = ofUInt32 n ++ rest) : uint32At b i = n := by
  have hbyte : ∀ j, b.getD (i + j) 0 = (ofUInt32 n ++ rest).getD j 0 := fun j => by
    rw [← h, List.getD_eq_getElem?_getD, List.getD_eq_getElem?_getD, List.getElem?_drop]
  have hfirst := hbyte 0
  rw [Nat.add_zero] at hfirst
  rw [uint32At, hfirst, hbyte 1, hbyte 2, hbyte 3]
  exact word32_ofUInt32 n

/-- Four bytes are the number that is read from them. -/
theorem ofUInt32_uint32At {b : Bytes} {i : Nat} (h : i + 4 ≤ b.length) :
    ofUInt32 (uint32At b i) = (b.drop i).take 4 := by
  have hbyte : ∀ j, j < b.length → b.drop j = b.getD j 0 :: b.drop (j + 1) := fun j hj => by
    rw [List.drop_eq_getElem_cons hj, ← List.getElem_eq_getD]
  rw [uint32At, ofUInt32_word32, hbyte i (by omega), hbyte (i + 1) (by omega),
    hbyte (i + 2) (by omega), hbyte (i + 3) (by omega)]
  rfl

/-! ## Cutting -/

/-- The first `n` bytes and the rest, if there are that many. -/
def splitAt? (n : Nat) (b : Bytes) : Option (Bytes × Bytes) :=
  if n ≤ b.length then some (b.take n, b.drop n) else none

@[simp] theorem splitAt?_append (b rest : Bytes) :
    splitAt? b.length (b ++ rest) = some (b, rest) := by
  simp [splitAt?]

theorem splitAt?_eq_some_iff {n : Nat} {b s rest : Bytes} :
    splitAt? n b = some (s, rest) ↔ s.length = n ∧ b = s ++ rest := by
  constructor
  · intro h
    unfold splitAt? at h
    split at h
    · rename_i hle
      cases h
      exact ⟨List.length_take_of_le hle, (List.take_append_drop n b).symm⟩
    · cases h
  · rintro ⟨rfl, rfl⟩
    exact splitAt?_append s rest

/-- The bytes before the first zero byte. -/
def untilNul (b : Bytes) : Bytes :=
  b.takeWhile (· != 0)

end Bytes

end GameLobby
