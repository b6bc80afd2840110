import GameLobby.Frame.Header
import Mathlib.Algebra.BigOperators.Fin

/-!
# What the word sum detects

The word sum weighs each byte by its place in its word (`Checksum.toNat_wordSum`). The sums of the
two sides of a word boundary add up to the sum of the whole (`Checksum.wordSum_split`), and up to
four bytes can be told from their sum (`Checksum.eq_of_wordSum_eq_short`). So damage within one word
changes the sum, though damage to two words need not. Main statement:
`Checksum.damaged_word_detected`.
-/

namespace GameLobby

/-! ## One word -/

namespace Bytes

theorem toNat_word32 (a b c d : UInt8) :
    (word32 a b c d).toNat =
      a.toNat + 256 * b.toNat + 65536 * c.toNat + 16777216 * d.toNat := by
  have ha := a.toNat_lt
  have hb := b.toNat_lt
  have hc := c.toNat_lt
  have hd := d.toNat_lt
  rw [word32, UInt32.toNat_ofNat']
  omega

/-- A number tells its four bytes. -/
theorem getD_eq_of_uint32At_eq {p q : Bytes} (h : uint32At p 0 = uint32At q 0) {i : Nat}
    (hi : i < 4) : p.getD i 0 = q.getD i 0 := by
  have hbytes := congrArg ofUInt32 h
  rw [uint32At, uint32At, ofUInt32_word32, ofUInt32_word32] at hbytes
  have hbyte := congrArg (·[i]?) hbytes
  obtain rfl | rfl | rfl | rfl : i = 0 ∨ i = 1 ∨ i = 2 ∨ i = 3 := by omega
  all_goals exact Option.some.inj hbyte

end Bytes

namespace Checksum

/-- A short payload is one word, filled up with zeros. -/
theorem wordSum_of_length_le {p : Bytes} (h : p.length ≤ 4) : wordSum p = Bytes.uint32At p 0 := by
  match p, h with
  | [], _ | [_], _ | [_, _], _ | [_, _, _], _ => rfl
  | [a, b, c, d], _ => exact UInt32.add_zero _

/-- Two payloads of one length, up to four, have different sums unless they are the same. -/
theorem eq_of_wordSum_eq_short {p q : Bytes} (hlength : p.length = q.length) (hshort : p.length ≤ 4)
    (h : wordSum p = wordSum q) : p = q := by
  rw [wordSum_of_length_le hshort, wordSum_of_length_le (hlength ▸ hshort)] at h
  refine List.ext_getElem hlength fun i hp hq => ?_
  have hbyte := Bytes.getD_eq_of_uint32At_eq h (i := i) (by omega)
  rwa [← List.getElem_eq_getD, ← List.getElem_eq_getD] at hbyte

/-! ## Many words -/

/-- Four bytes at the front of a payload weigh as much as their word. -/
theorem sum_weights_cons (a b c d : UInt8) (rest : Bytes) :
    ∑ i : Fin (a :: b :: c :: d :: rest).length,
        (a :: b :: c :: d :: rest)[i].toNat * 256 ^ (i.val % 4) =
      (Bytes.word32 a b c d).toNat + ∑ i : Fin rest.length, rest[i].toNat * 256 ^ (i.val % 4) := by
  have hweight : ∀ i, 256 ^ ((i + 1 + 1 + 1 + 1) % 4) = 256 ^ (i % 4) := fun i =>
    congrArg (256 ^ ·) (Nat.add_mod_right i 4)
  rw [Bytes.toNat_word32]
  simp only [List.length_cons, Fin.sum_univ_succ, Fin.getElem_fin, Fin.val_zero, Fin.val_succ,
    List.getElem_cons_zero, List.getElem_cons_succ, hweight, Nat.zero_mod, Nat.reduceAdd,
    Nat.reduceMod, Nat.reducePow]
  omega

/-- The word sum is the sum of all bytes, each with the weight of its place in its word. -/
theorem toNat_wordSum (p : Bytes) :
    (wordSum p).toNat = (∑ i : Fin p.length, p[i].toNat * 256 ^ (i.val % 4)) % 2 ^ 32 := by
  fun_induction wordSum p with
  | case1 => rfl
  | case2 a => simp [Bytes.toNat_word32]
  | case3 a b =>
    have ha := a.toNat_lt
    have hb := b.toNat_lt
    simp [Fin.sum_univ_succ, Bytes.toNat_word32]
    omega
  | case4 a b c =>
    have ha := a.toNat_lt
    have hb := b.toNat_lt
    have hc := c.toNat_lt
    simp [Fin.sum_univ_succ, Bytes.toNat_word32]
    omega
  | case5 a b c d rest ih => rw [sum_weights_cons, UInt32.toNat_add, ih, Nat.add_mod_mod]

theorem wordSum_take_add_drop (p : Bytes) :
    wordSum p = wordSum (p.take 4) + wordSum (p.drop 4) := by
  match p with
  | [] | [_] | [_, _] | [_, _, _] => exact (UInt32.add_zero _).symm
  | a :: b :: c :: d :: rest =>
    show Bytes.word32 a b c d + wordSum rest = Bytes.word32 a b c d + 0 + wordSum rest
    rw [UInt32.add_zero]

/-- The sums of the two sides of a word boundary add up. -/
theorem wordSum_split (k : Nat) (p : Bytes) :
    wordSum p = wordSum (p.take (4 * k)) + wordSum (p.drop (4 * k)) := by
  induction k generalizing p with
  | zero => exact (UInt32.zero_add _).symm
  | succ k ih =>
    have hfront : (p.take (4 * (k + 1))).take 4 = p.take 4 := by
      rw [List.take_take, Nat.min_eq_left (by omega)]
    have hback : (p.take (4 * (k + 1))).drop 4 = (p.drop 4).take (4 * k) := List.drop_take
    have hrest : p.drop (4 * (k + 1)) = (p.drop 4).drop (4 * k) := by
      rw [List.drop_drop, Nat.mul_succ, Nat.add_comm]
    rw [wordSum_take_add_drop p, ih (p.drop 4), wordSum_take_add_drop (p.take (4 * (k + 1))),
      hfront, hback, hrest, UInt32.add_assoc]

/-! ## Damage to one word -/

/-- Two payloads of one length that differ at most within word `k`: in the bytes from `4 * k` to
`4 * k + 3`, or those of them that there are. -/
structure SameButWord (k : Nat) (p q : Bytes) : Prop where
  length_eq : p.length = q.length
  getElem?_eq : ∀ i, i / 4 ≠ k → p[i]? = q[i]?

namespace SameButWord

variable {k : Nat} {p q : Bytes}

/-- Another byte in one place. -/
theorem set (p : Bytes) (i : Nat) (b : UInt8) : SameButWord (i / 4) p (p.set i b) where
  length_eq := List.length_set.symm
  getElem?_eq j hj := by
    have hne : i ≠ j := fun h => hj (congrArg (· / 4) h.symm)
    rw [List.getElem?_set_ne hne]

theorem take_eq (h : SameButWord k p q) : p.take (4 * k) = q.take (4 * k) := by
  refine List.ext_getElem? fun i => ?_
  rw [List.getElem?_take, List.getElem?_take]
  by_cases hi : i < 4 * k
  · rw [if_pos hi, if_pos hi, h.getElem?_eq i (by omega)]
  · rw [if_neg hi, if_neg hi]

theorem drop_eq (h : SameButWord k p q) : (p.drop (4 * k)).drop 4 = (q.drop (4 * k)).drop 4 := by
  refine List.ext_getElem? fun i => ?_
  rw [List.drop_drop, List.drop_drop, List.getElem?_drop, List.getElem?_drop,
    h.getElem?_eq (4 * k + 4 + i) (by omega)]

/-- Payloads that differ in one word at most have different sums unless they are the same: all that
is outside the word adds the same to both sums. -/
theorem eq_of_wordSum_eq (h : SameButWord k p q) (hsum : wordSum p = wordSum q) : p = q := by
  rw [wordSum_split k p, wordSum_split k q, h.take_eq, UInt32.add_right_inj,
    wordSum_take_add_drop (p.drop (4 * k)), wordSum_take_add_drop (q.drop (4 * k)), h.drop_eq,
    UInt32.add_left_inj] at hsum
  have hlength : ((p.drop (4 * k)).take 4).length = ((q.drop (4 * k)).take 4).length := by
    simp only [List.length_take, List.length_drop, h.length_eq]
  have hword := eq_of_wordSum_eq_short hlength (List.length_take_le 4 _) hsum
  calc p = p.take (4 * k) ++ ((p.drop (4 * k)).take 4 ++ (p.drop (4 * k)).drop 4) := by
        rw [List.take_append_drop, List.take_append_drop]
    _ = q.take (4 * k) ++ ((q.drop (4 * k)).take 4 ++ (q.drop (4 * k)).drop 4) := by
        rw [h.take_eq, hword, h.drop_eq]
    _ = q := by rw [List.take_append_drop, List.take_append_drop]

end SameButWord

/-- A checksum tells two payloads apart: a header with the checksum of the first is accepted with
the first and refused with the second. -/
structure TellsApart (checksum : Checksum) (p q : Bytes) : Prop where
  ne : checksum p ≠ checksum q
  accepted : ∀ header : FrameHeader, header.payloadChecksum = checksum p →
    Frame.checksumFault? checksum ⟨header, p⟩ = none
  refused : ∀ header : FrameHeader, header.payloadChecksum = checksum p →
    Frame.checksumFault? checksum ⟨header, q⟩ =
      some (.checksumMismatch (checksum p) (checksum q))

theorem tellsApart_of_ne {checksum : Checksum} {p q : Bytes} (h : checksum p ≠ checksum q) :
    checksum.TellsApart p q where
  ne := h
  accepted header hheader := by
    rw [Frame.checksumFault?, hheader, if_neg (not_not_intro rfl)]
  refused header hheader := by
    rw [Frame.checksumFault?, hheader, if_pos h.symm]

/-- **Damage to one word is detected.** The word sum of a payload of any length is the sum of its
bytes, each times 256 to the power of its place in its word, modulo 2^32. Two payloads of one length
that differ, and within one word only, have different sums, and what was altered is refused under
the header that was made for the other. A single byte is a case of it. -/
theorem damaged_word_detected :
    (∀ p : Bytes, (wordSum p).toNat =
      (∑ i : Fin p.length, p[i].toNat * 256 ^ (i.val % 4)) % 2 ^ 32) ∧
    (∀ (k : Nat) (p q : Bytes), SameButWord k p q → p ≠ q → TellsApart wordSum p q) ∧
    ∀ (p : Bytes) (i : Fin p.length) (b : UInt8), b ≠ p[i] →
      TellsApart wordSum p (p.set i b) := by
  have hword : ∀ (k : Nat) (p q : Bytes), SameButWord k p q → p ≠ q → TellsApart wordSum p q :=
    fun k p q h hne => tellsApart_of_ne (mt h.eq_of_wordSum_eq hne)
  refine ⟨toNat_wordSum, hword, fun p i b hb => ?_⟩
  refine hword _ p _ (SameButWord.set p i b) fun heq => hb ?_
  have hbyte := congrArg (·[i.val]?) heq
  rw [List.getElem?_set_self i.isLt, List.getElem?_eq_getElem i.isLt] at hbyte
  exact (Option.some.inj hbyte).symm

/-- The last two of six bytes change places, or the last one alone changes. The first four are the
largest word, so the sum of all starts again from 0. -/
theorem damaged_word_detected_in_tail :
    let p : Bytes := [255, 255, 255, 255, 1, 2]
    let q : Bytes := [255, 255, 255, 255, 2, 1]
    SameButWord 1 p q ∧ p ≠ q ∧ wordSum p = 0x0200 ∧
      Frame.checksumFault? wordSum
          ⟨.carrying .clientToServer FrameKind.handshakeConnect.code p wordSum, q⟩ =
        some (.checksumMismatch 0x0200 0x0101) ∧
      wordSum p ≠ wordSum (p.set 5 3) := by
  intro p q
  have hsame : SameButWord 1 p q := by
    refine ⟨rfl, fun i hi => ?_⟩
    match i, hi with
    | 0, _ | 1, _ | 2, _ | 3, _ => rfl
    | 4, hi | 5, hi => exact absurd rfl hi
    | _ + 6, _ => rfl
  have hne : p ≠ q := by decide
  exact ⟨hsame, hne, by decide,
    (damaged_word_detected.2.1 1 p q hsame hne).refused _ rfl,
    (damaged_word_detected.2.2 p ⟨5, by decide⟩ 3 (by decide)).ne⟩

/-- Words that change places leave the sum as it was. -/
example : wordSum [1, 0, 0, 0, 2, 0, 0, 0] = wordSum [2, 0, 0, 0, 1, 0, 0, 0] := by decide

end Checksum

end GameLobby
