import GameLobby.Text.Utf8

/-!
# Reading back what was written, whole or cut

The bytes that are written for a character are read as it (`Utf8.spells_encodeChar`), and a part of
them as one unreadable item (`Utf8.Spells.items_take`). So what is read of a text that is cut after
some number of bytes are the characters that are whole, and a replacement if the cut is inside one
(`exists_cut_lossy_take`). A cut at the first NUL is inside none (`untilNul_encode`).
-/

namespace GameLobby.Text

namespace Utf8

/-! ## The bytes of a character -/

/-- Bytes that complete a character from a state. -/
inductive Completes : State → Bytes → Char → Prop where
  | last {bits low high : Nat} {b : UInt8} (hlow : low ≤ b.toNat) (hhigh : b.toNat ≤ high) :
    Completes (.inside bits low high 0) [b] (Char.ofNat (bits * 64 + b.toNat % 64))
  | more {bits low high owed : Nat} {b : UInt8} {bs : Bytes} {c : Char} (hlow : low ≤ b.toNat)
    (hhigh : b.toNat ≤ high)
    (h : Completes (.inside (bits * 64 + b.toNat % 64) 0x80 0xBF owed) bs c) :
    Completes (.inside bits low high (owed + 1)) (b :: bs) c

/-- The continuation byte with the low six bits of a number. -/
def continuation (v : Nat) : UInt8 :=
  UInt8.ofNat (v % 64 + 0x80)

theorem toNat_continuation (v : Nat) : (continuation v).toNat = v % 64 + 0x80 := by
  rw [continuation, UInt8.toNat_ofNat']
  omega

theorem bits_continuation (v : Nat) : v / 64 * 64 + (continuation v).toNat % 64 = v := by
  rw [toNat_continuation]
  omega

namespace Completes

variable {v low high owed : Nat} {q : State} {bs : Bytes} {c : Char}

theorem last_continuation (hlow : low ≤ v % 64 + 0x80) (hhigh : v % 64 + 0x80 ≤ high) :
    Completes (.inside (v / 64) low high 0) [continuation v] (Char.ofNat v) := by
  rw [← toNat_continuation] at hlow hhigh
  have h := @last (v / 64) low high _ hlow hhigh
  rwa [bits_continuation] at h

theorem more_continuation (hlow : low ≤ v % 64 + 0x80) (hhigh : v % 64 + 0x80 ≤ high)
    (h : Completes (.inside v 0x80 0xBF owed) bs c) :
    Completes (.inside (v / 64) low high (owed + 1)) (continuation v :: bs) c := by
  rw [← toNat_continuation] at hlow hhigh
  exact more hlow hhigh (by rwa [bits_continuation])

theorem items_append (h : Completes q bs c) (rest : Bytes) :
    items q (bs ++ rest) = some c :: items .start rest := by
  induction h with
  | last hlow hhigh =>
    show (step _ _).1 ++ items (step _ _).2 rest = _
    rw [step, if_pos ⟨hlow, hhigh⟩]
    rfl
  | more hlow hhigh _ ih =>
    show (step _ _).1 ++ items (step _ _).2 _ = _
    rw [step, if_pos ⟨hlow, hhigh⟩]
    exact ih

/-- A part of the bytes leaves the character open, and the end makes it unreadable. -/
theorem items_take (h : Completes q bs c) {n : Nat} (hn : n < bs.length) :
    items q (bs.take n) = [none] := by
  induction h generalizing n with
  | last =>
    obtain rfl : n = 0 := Nat.lt_one_iff.mp hn
    rfl
  | more hlow hhigh _ ih =>
    cases n with
    | zero => rfl
    | succ n =>
      show (step _ _).1 ++ items (step _ _).2 _ = _
      rw [step, if_pos ⟨hlow, hhigh⟩]
      exact ih (Nat.lt_of_succ_lt_succ hn)

end Completes

/-! The first byte of a character says how many follow, and between which bounds the second one
is. -/

theorem first_of_two {v : Nat} (hlow : 0x80 ≤ v) (hhigh : v < 0x800) :
    first (v / 64 + 0xC0) = ([], .inside (v / 64) 0x80 0xBF 0) := by
  unfold first
  rw [if_neg (by omega), if_neg (by omega), if_pos (by omega),
    show (v / 64 + 0xC0) % 0x20 = v / 64 by omega]

theorem first_of_three {v : Nat} (hlow : 0x800 ≤ v) (hhigh : v < 0x10000)
    (hvalid : v < 0xD800 ∨ 0xDFFF < v) :
    ∃ low high, first (v / 64 / 64 + 0xE0) = ([], .inside (v / 64 / 64) low high 1) ∧
      low ≤ v / 64 % 64 + 0x80 ∧ v / 64 % 64 + 0x80 ≤ high := by
  unfold first
  rw [if_neg (by omega), if_neg (by omega), if_neg (by omega)]
  by_cases hE0 : v / 64 / 64 + 0xE0 = 0xE0
  · refine ⟨0xA0, 0xBF, ?_, by omega, by omega⟩
    rw [if_pos hE0, show v / 64 / 64 = 0 by omega]
  · rw [if_neg hE0]
    by_cases hED : v / 64 / 64 + 0xE0 = 0xED
    · refine ⟨0x80, 0x9F, ?_, by omega, by omega⟩
      rw [if_pos hED, show v / 64 / 64 = 0xD by omega]
    · refine ⟨0x80, 0xBF, ?_, by omega, by omega⟩
      rw [if_neg hED, if_pos (by omega), show (v / 64 / 64 + 0xE0) % 0x10 = v / 64 / 64 by omega]

theorem first_of_four {v : Nat} (hlow : 0x10000 ≤ v) (hhigh : v < 0x110000) :
    ∃ low high, first (v / 64 / 64 / 64 + 0xF0) = ([], .inside (v / 64 / 64 / 64) low high 2) ∧
      low ≤ v / 64 / 64 % 64 + 0x80 ∧ v / 64 / 64 % 64 + 0x80 ≤ high := by
  unfold first
  rw [if_neg (by omega), if_neg (by omega), if_neg (by omega), if_neg (by omega),
    if_neg (by omega), if_neg (by omega)]
  by_cases hF0 : v / 64 / 64 / 64 + 0xF0 = 0xF0
  · refine ⟨0x90, 0xBF, ?_, by omega, by omega⟩
    rw [if_pos hF0, show v / 64 / 64 / 64 = 0 by omega]
  · rw [if_neg hF0]
    by_cases hF4 : v / 64 / 64 / 64 + 0xF0 < 0xF4
    · refine ⟨0x80, 0xBF, ?_, by omega, by omega⟩
      rw [if_pos hF4, show (v / 64 / 64 / 64 + 0xF0) % 8 = v / 64 / 64 / 64 by omega]
    · refine ⟨0x80, 0x8F, ?_, by omega, by omega⟩
      rw [if_neg hF4, if_pos (by omega), show v / 64 / 64 / 64 = 4 by omega]

/-- Bytes that are read as a character: one byte, or one that opens it and others that complete
it. -/
inductive Spells : Bytes → Char → Prop where
  | one {b : UInt8} {c : Char} (hfirst : first b.toNat = ([some c], .start)) : Spells [b] c
  | many {b : UInt8} {bs : Bytes} {q : State} {c : Char} (hfirst : first b.toNat = ([], q))
    (hrest : Completes q bs c) : Spells (b :: bs) c

theorem spells_one {v : Nat} (h : v < 0x80) : Spells [UInt8.ofNat v] (Char.ofNat v) := by
  refine .one ?_
  rw [UInt8.toNat_ofNat', Nat.mod_eq_of_lt (by omega), first, if_pos h]

theorem spells_two {v : Nat} (hlow : 0x80 ≤ v) (hhigh : v < 0x800) :
    Spells [UInt8.ofNat (v / 64 % 32 + 0xC0), continuation v] (Char.ofNat v) := by
  have hbyte : (v / 64 % 32 + 0xC0) % 2 ^ 8 = v / 64 + 0xC0 := by omega
  refine .many ?_ (.last_continuation (by omega : 0x80 ≤ _) (by omega : _ ≤ 0xBF))
  rw [UInt8.toNat_ofNat', hbyte]
  exact first_of_two hlow hhigh

theorem spells_three {v : Nat} (hlow : 0x800 ≤ v) (hhigh : v < 0x10000)
    (hvalid : v < 0xD800 ∨ 0xDFFF < v) :
    Spells [UInt8.ofNat (v / 4096 % 16 + 0xE0), continuation (v / 64), continuation v]
      (Char.ofNat v) := by
  obtain ⟨low, high, hfirst, hlow, hhigh⟩ := first_of_three hlow hhigh hvalid
  have hbyte : (v / 4096 % 16 + 0xE0) % 2 ^ 8 = v / 64 / 64 + 0xE0 := by omega
  refine .many ?_ (.more_continuation hlow hhigh (.last_continuation (by omega) (by omega)))
  rw [UInt8.toNat_ofNat', hbyte]
  exact hfirst

theorem spells_four {v : Nat} (hlow : 0x10000 ≤ v) (hhigh : v < 0x110000) :
    Spells [UInt8.ofNat (v / 262144 % 8 + 0xF0), continuation (v / 4096), continuation (v / 64),
      continuation v] (Char.ofNat v) := by
  obtain ⟨low, high, hfirst, hlow, hhigh⟩ := first_of_four hlow hhigh
  have hbyte : (v / 262144 % 8 + 0xF0) % 2 ^ 8 = v / 64 / 64 / 64 + 0xF0 := by omega
  rw [show v / 4096 = v / 64 / 64 by omega]
  refine .many ?_ (.more_continuation hlow hhigh (.more_continuation (by omega) (by omega)
    (.last_continuation (by omega) (by omega))))
  rw [UInt8.toNat_ofNat', hbyte]
  exact hfirst

/-- The bytes that are written for a character are read as it. -/
theorem spells_encodeChar (c : Char) : Spells (String.utf8EncodeChar c) c := by
  have hvalid : c.val.toNat < 0xD800 ∨ 0xDFFF < c.val.toNat ∧ c.val.toNat < 0x110000 := c.valid
  have hc : Char.ofNat c.val.toNat = c := Char.ofNat_toNat c
  unfold String.utf8EncodeChar
  generalize c.val.toNat = v at hvalid hc
  subst hc
  dsimp only
  by_cases hone : v ≤ 0x7F
  · rw [if_pos hone]
    exact spells_one (by omega)
  rw [if_neg hone]
  by_cases htwo : v ≤ 0x7FF
  · rw [if_pos htwo]
    exact spells_two (by omega) (by omega)
  rw [if_neg htwo]
  by_cases hthree : v ≤ 0xFFFF
  · rw [if_pos hthree]
    exact spells_three (by omega) (by omega) (by omega)
  · rw [if_neg hthree]
    exact spells_four (by omega) (by omega)

namespace Spells

variable {bs : Bytes} {c : Char}

/-- The reader finds the character, and reads on behind it. -/
theorem items_append (h : Spells bs c) (rest : Bytes) :
    items .start (bs ++ rest) = some c :: items .start rest := by
  cases h with
  | one hfirst =>
    show (first _).1 ++ items (first _).2 rest = _
    rw [hfirst]
    rfl
  | many hfirst hrest =>
    show (first _).1 ++ items (first _).2 _ = _
    rw [hfirst]
    exact hrest.items_append rest

/-- The reader finds one unreadable item in a part of the bytes. -/
theorem items_take (h : Spells bs c) {n : Nat} (hpos : 0 < n) (hn : n < bs.length) :
    items .start (bs.take n) = [none] := by
  obtain ⟨n, rfl⟩ := Nat.exists_eq_succ_of_ne_zero (Nat.ne_of_gt hpos)
  cases h with
  | one => exact absurd (Nat.lt_of_succ_lt_succ hn) (Nat.not_lt_zero n)
  | many hfirst hrest =>
    show (first _).1 ++ items (first _).2 (List.take n _) = _
    rw [hfirst]
    exact hrest.items_take (Nat.lt_of_succ_lt_succ hn)

theorem length_pos (h : Spells bs c) : 0 < bs.length := by
  cases h with
  | one | many => exact Nat.succ_pos _

end Spells

/-- Only the character NUL has the byte 0. -/
theorem zero_mem_encodeChar_iff {c : Char} : 0 ∈ String.utf8EncodeChar c ↔ c = '\x00' := by
  have hzero : c = '\x00' ↔ c.val.toNat = 0 := by
    rw [← Char.toNat_inj]
    rfl
  rw [hzero]
  unfold String.utf8EncodeChar
  generalize c.val.toNat = v
  dsimp only
  (repeat' split) <;> simp [← UInt8.toNat_inj] <;> omega

end Utf8

/-! ## Many characters -/

/-- The UTF-8 bytes of some characters. -/
def encode (cs : List Char) : Bytes :=
  cs.flatMap String.utf8EncodeChar

theorem utf8_eq_encode (s : String) : utf8 s = encode s.toList := rfl

theorem encode_cons (c : Char) (cs : List Char) :
    encode (c :: cs) = String.utf8EncodeChar c ++ encode cs := rfl

theorem length_encode_cons (c : Char) (cs : List Char) :
    (encode (c :: cs)).length = (String.utf8EncodeChar c).length + (encode cs).length := by
  rw [encode_cons, List.length_append]

theorem length_encode_append (cs ds : List Char) :
    (encode (cs ++ ds)).length = (encode cs).length + (encode ds).length := by
  rw [encode, List.flatMap_append, List.length_append]
  rfl

/-- What the items of a byte string are shown as. -/
theorem lossy_eq_ofList {b : Bytes} {shown : List Char}
    (h : (Utf8.items .start b).map (·.getD replacement) = shown) :
    lossy b = String.ofList shown :=
  congrArg String.ofList h

/-- What is shown of the characters `cs` if their bytes are cut after `n`. -/
inductive Cut (n : Nat) (cs : List Char) : List Char → Prop where
  /-- The bytes are no more than that: all of them. -/
  | whole (hfit : (encode cs).length ≤ n) : Cut n cs cs
  /-- The cut is where a character ends: the characters before it. -/
  | between {kept lost : List Char} (hsplit : cs = kept ++ lost)
    (hkept : (encode kept).length = n) : Cut n cs kept
  /-- The cut is inside a character: those before it, and a replacement for it. -/
  | inside {kept lost : List Char} {c : Char} (hsplit : cs = kept ++ c :: lost)
    (hkept : (encode kept).length < n) (hcut : n < (encode (kept ++ [c])).length) :
    Cut n cs (kept ++ [replacement])

/-- A character in front moves the cut by as many bytes as it has. -/
theorem Cut.cons {n : Nat} {cs shown : List Char} (c : Char)
    (h : Cut n cs shown) : Cut ((String.utf8EncodeChar c).length + n) (c :: cs) (c :: shown) := by
  cases h with
  | whole hfit => exact .whole (by rw [length_encode_cons]; omega)
  | between hsplit hkept =>
    exact .between (congrArg (c :: ·) hsplit) (by rw [length_encode_cons]; omega)
  | @inside kept lost d hsplit hkept hcut =>
    refine .inside (show c :: cs = (c :: kept) ++ d :: lost from congrArg (c :: ·) hsplit) ?_ ?_
    · rw [length_encode_cons]
      omega
    · rw [List.cons_append, length_encode_cons]
      omega

/-- A cut behind the last character leaves all of them. -/
theorem Cut.eq_of_length_le {n : Nat} {cs shown : List Char} (h : Cut n cs shown)
    (hfit : (encode cs).length ≤ n) : shown = cs := by
  cases h with
  | whole => rfl
  | @between _ lost hsplit hkept =>
    subst hsplit
    rw [length_encode_append] at hfit
    cases lost with
    | nil => exact (List.append_nil _).symm
    | cons c lost =>
      have hpos := (Utf8.spells_encodeChar c).length_pos
      rw [length_encode_cons] at hfit
      omega
  | inside hsplit hkept hcut =>
    subst hsplit
    rw [length_encode_append, length_encode_cons] at hfit hcut
    have hnil : (encode []).length = 0 := rfl
    omega

/-- What is read of some characters whose bytes are cut. -/
theorem exists_cut_lossy_take (n : Nat) (cs : List Char) :
    ∃ shown, Cut n cs shown ∧ lossy ((encode cs).take n) = String.ofList shown := by
  suffices h : ∃ shown, Cut n cs shown ∧
      (Utf8.items .start ((encode cs).take n)).map (·.getD replacement) = shown by
    obtain ⟨shown, hcut, hshown⟩ := h
    exact ⟨shown, hcut, lossy_eq_ofList hshown⟩
  induction cs generalizing n with
  | nil => exact ⟨[], .whole (Nat.zero_le n), by rw [encode, List.flatMap_nil, List.take_nil]; rfl⟩
  | cons c cs ih =>
    rw [encode_cons, List.take_append]
    by_cases hfit : (String.utf8EncodeChar c).length ≤ n
    · obtain ⟨m, rfl⟩ := Nat.exists_eq_add_of_le hfit
      obtain ⟨shown, hcut, hshown⟩ := ih m
      refine ⟨c :: shown, hcut.cons c, ?_⟩
      rw [List.take_of_length_le hfit, Nat.add_sub_cancel_left,
        (Utf8.spells_encodeChar c).items_append, List.map_cons, hshown]
      rfl
    · -- the cut is in front of the first character or inside it
      have hinside := Nat.lt_of_not_le hfit
      rw [Nat.sub_eq_zero_of_le (Nat.le_of_lt hinside), List.take_zero, List.append_nil]
      by_cases hzero : n = 0
      · subst hzero
        exact ⟨[], .between rfl rfl, rfl⟩
      · have hpos := Nat.pos_of_ne_zero hzero
        refine ⟨[replacement], .inside (show c :: cs = [] ++ c :: cs from rfl) hpos ?_, ?_⟩
        · rw [List.nil_append, length_encode_cons]
          omega
        · rw [(Utf8.spells_encodeChar c).items_take hpos hinside]
          rfl

/-- The bytes before the first NUL are those of the characters before it. -/
theorem untilNul_encode (cs : List Char) :
    Bytes.untilNul (encode cs) = encode (cs.takeWhile (· != '\x00')) := by
  induction cs with
  | nil => rfl
  | cons c cs ih =>
    by_cases hc : c = '\x00'
    · subst hc
      rfl
    · have hbytes : ∀ b ∈ String.utf8EncodeChar c, b != 0 := fun b hb =>
        bne_iff_ne.mpr fun hzero => hc (Utf8.zero_mem_encodeChar_iff.mp (hzero ▸ hb))
      rw [List.takeWhile_cons, if_pos (bne_iff_ne.mpr hc), encode_cons, encode_cons, Bytes.untilNul,
        List.takeWhile_append_of_pos hbytes]
      exact congrArg _ ih

end GameLobby.Text
