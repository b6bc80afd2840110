import GameLobby.Handshake
import GameLobby.Proofs.Text.Utf8

/-!
# Handshakes and their bytes

The fields of a handshake fill 52 bytes one after the other. What is written is read back, and what
is read from 52 bytes is written as them (`Handshake.decode_encode`, `Handshake.encode_of_decode`).
An answer differs from what it answers outside the bytes 4 to 39 only
(`Handshake.take_drop_encode_reply`). The name of a client is cut after 31 bytes, which can be
inside a character, and at its first NUL. Main statement: `Handshake.record_faithful`.
-/

namespace GameLobby

namespace Bytes

/-- NULs at the end are behind the first one. -/
theorem untilNul_append_replicate (b : Bytes) (n : Nat) :
    untilNul (b ++ List.replicate (n + 1) 0) = untilNul b := by
  induction b with
  | nil => rfl
  | cons a b ih =>
    unfold untilNul at ih ⊢
    rw [List.cons_append, List.takeWhile_cons, List.takeWhile_cons, ih]

/-- What is behind the first of two parts that follow one another. -/
theorem drop_of_drop_eq_append {b s t : Bytes} {i n : Nat} (h : b.drop i = s ++ t)
    (hs : s.length = n) : b.drop (i + n) = t := by
  rw [← List.drop_drop, h, List.drop_left' hs]

end Bytes

namespace FixedBytes

theorem ofTake_of_eq_append {n : Nat} {b rest : Bytes} {s : FixedBytes n} (hle : n ≤ b.length)
    (h : b = s.bytes ++ rest) : ofTake n b hle = s :=
  ext (h ▸ List.take_left' s.length_eq)

/-- Padding leaves the bytes before it as they were, and there is some of it. -/
theorem bytes_padded (n : Nat) (b : Bytes) :
    ∃ m, (padded n b).bytes = b.take n ++ List.replicate (m + 1) 0 := by
  refine ⟨n - (b.take n).length, ?_⟩
  show b.take n ++ List.replicate (n + 1 - (b.take n).length) 0 = _
  rw [Nat.sub_add_comm (List.length_take_le n b)]

theorem untilNul_padded (n : Nat) (b : Bytes) :
    Bytes.untilNul (padded n b).bytes = Bytes.untilNul (b.take n) := by
  obtain ⟨m, hm⟩ := bytes_padded n b
  rw [hm, Bytes.untilNul_append_replicate]

end FixedBytes

namespace Handshake

/-! ## Reading and writing -/

theorem length_encode (h : Handshake) : h.encode.length = size := by
  unfold encode
  simp only [List.length_append, h.username.length_eq, h.password.length_eq, Bytes.length_ofUInt32]
  rfl

theorem exists_decode_iff {b : Bytes} :
    (∃ handshake, decode b = .ok handshake) ↔ b.length = size := by
  unfold decode
  constructor
  · rintro ⟨handshake, hdecode⟩
    split at hdecode
    · assumption
    · cases hdecode
  · intro hlength
    rw [dif_pos hlength]
    exact ⟨_, rfl⟩

theorem drop_four_encode (h : Handshake) : h.encode.drop 4 =
    Bytes.ofUInt32 h.endpointId ++ (h.username.bytes ++ (h.password.bytes ++
      (Bytes.ofUInt32 h.unknown ++ []))) := by
  simp only [encode, List.append_assoc, List.append_nil]
  exact List.drop_left' (Bytes.length_ofUInt32 _)

/-- What was written is read back. -/
theorem decode_encode (h : Handshake) : decode h.encode = .ok h := by
  -- each field is at the front of what the fields before it leave
  have hmagic : h.encode.drop 0 = Bytes.ofUInt32 h.magic ++ h.encode.drop 4 :=
    (List.take_append_drop 4 h.encode).symm
  have hendpointId := h.drop_four_encode
  have husername : h.encode.drop 8 = _ := Bytes.drop_of_drop_eq_append hendpointId rfl
  have hpassword : h.encode.drop 40 = _ :=
    Bytes.drop_of_drop_eq_append husername h.username.length_eq
  have hunknown : h.encode.drop 48 = _ :=
    Bytes.drop_of_drop_eq_append hpassword h.password.length_eq
  rw [decode, dif_pos h.length_encode]
  refine congrArg Except.ok ?_
  rw [Bytes.uint32At_of_drop_eq hmagic, Bytes.uint32At_of_drop_eq hendpointId,
    FixedBytes.ofTake_of_eq_append _ husername, FixedBytes.ofTake_of_eq_append _ hpassword,
    Bytes.uint32At_of_drop_eq hunknown]

/-- What was read is written as it was. -/
theorem encode_of_decode {b : Bytes} {h : Handshake} (hdecode : decode b = .ok h) :
    h.encode = b := by
  have hsize : b.length = size := exists_decode_iff.mp ⟨h, hdecode⟩
  have hlength : b.length = 52 := hsize
  rw [decode, dif_pos hsize] at hdecode
  obtain rfl := Except.ok.inj hdecode
  have hall : b.take (4 + 4 + 32 + 8 + 4) = b :=
    List.take_of_length_le (Nat.le_of_eq hlength)
  simp only [List.take_add] at hall
  unfold encode
  dsimp only
  rw [Bytes.ofUInt32_uint32At (by omega), Bytes.ofUInt32_uint32At (by omega),
    Bytes.ofUInt32_uint32At (by omega), List.drop_zero]
  exact hall

/-! ## Answers -/

/-- An answer has the same bytes as what it answers where the number and the name are. -/
theorem take_drop_encode_reply (h : Handshake) :
    (h.reply.encode.drop 4).take 36 = (h.encode.drop 4).take 36 := by
  have hplace : ∀ g : Handshake,
      (g.encode.drop 4).take 36 = Bytes.ofUInt32 g.endpointId ++ g.username.bytes := fun g => by
    rw [g.drop_four_encode, ← List.append_assoc]
    refine List.take_left' ?_
    rw [List.length_append, g.username.length_eq]
    rfl
  rw [hplace, hplace]
  rfl

/-- Answers are the same exactly if number and name of what they answer are. -/
theorem reply_eq_reply_iff {h h' : Handshake} :
    h.reply = h'.reply ↔ h.endpointId = h'.endpointId ∧ h.username = h'.username := by
  rw [reply, reply, mk.injEq]
  exact ⟨fun heq => ⟨heq.2.1, heq.2.2.1⟩, fun heq => ⟨rfl, heq.1, heq.2, rfl, rfl⟩⟩

/-! ## Names -/

/-- What a client is called: the text of its name, up to 31 bytes and to the first NUL. -/
theorem name_ofClient (sourceId : UInt32) (username password : String) :
    (ofClient sourceId username password).name =
      Text.lossy (Bytes.untilNul ((Text.utf8 username).take 31)) :=
  congrArg Text.lossy (FixedBytes.untilNul_padded 31 _)

theorem exists_cut_name_ofClient (sourceId : UInt32) (username password : String) :
    ∃ shown, Text.Cut 31 (username.toList.takeWhile (· != '\x00')) shown ∧
      (ofClient sourceId username password).name = String.ofList shown := by
  obtain ⟨shown, hcut, hshown⟩ :=
    Text.exists_cut_lossy_take 31 (username.toList.takeWhile (· != '\x00'))
  refine ⟨shown, hcut, ?_⟩
  rw [name_ofClient, Bytes.untilNul, ← List.take_takeWhile, Text.utf8_eq_encode, ← Bytes.untilNul,
    Text.untilNul_encode, hshown]

/-- A name with room for all of it and without a NUL is what a client is called. -/
theorem name_ofClient_of_short (sourceId : UInt32) {username : String} (password : String)
    (hfit : (Text.utf8 username).length ≤ 31) (hnul : '\x00' ∉ username.toList) :
    (ofClient sourceId username password).name = username := by
  obtain ⟨shown, hcut, hname⟩ := exists_cut_name_ofClient sourceId username password
  have hkeep : ∀ c ∈ username.toList, c != '\x00' := fun c hc =>
    bne_iff_ne.mpr fun h => hnul (h ▸ hc)
  have hall : (username.toList ++ []).takeWhile (· != '\x00') = username.toList ++ [] :=
    List.takeWhile_append_of_pos hkeep
  rw [List.append_nil] at hall
  rw [hall] at hcut
  rw [hname, hcut.eq_of_length_le hfit, String.ofList_toList]

/-- **The record of a handshake.** Byte strings of 52 bytes, and no others, are read, and reading
and writing undo each other. An answer keeps the number and all bytes of the name, and depends on
nothing else, so that the answer to an answer is the same again. In the handshake of a client, name
and password are cut to 31 and 7 bytes and end in NULs. Written and read again, its name is the text
of the bytes that were kept, up to the first NUL: the characters that are whole, and a replacement
for one that is cut; and the name itself if all of it has room. -/
theorem record_faithful :
    (∀ b : Bytes, (∃ h, decode b = .ok h) ↔ b.length = 52) ∧
    (∀ (b : Bytes) (h : Handshake), decode b = .ok h → h.encode = b) ∧
    (∀ h : Handshake, decode h.encode = .ok h) ∧
    (∀ h : Handshake, h.reply.endpointId = h.endpointId ∧ h.reply.username = h.username ∧
      (h.reply.encode.drop 4).take 36 = (h.encode.drop 4).take 36 ∧ h.reply.reply = h.reply) ∧
    (∀ h h' : Handshake,
      h.reply = h'.reply ↔ h.endpointId = h'.endpointId ∧ h.username = h'.username) ∧
    ∀ (sourceId : UInt32) (username password : String),
      let h := ofClient sourceId username password
      (∃ n, h.username.bytes = (Text.utf8 username).take 31 ++ List.replicate (n + 1) 0) ∧
      (∃ n, h.password.bytes = (Text.utf8 password).take 7 ++ List.replicate (n + 1) 0) ∧
      ∃ h', decode h.encode = .ok h' ∧
        h'.name = Text.lossy (Bytes.untilNul ((Text.utf8 username).take 31)) ∧
        (∃ shown, Text.Cut 31 (username.toList.takeWhile (· != '\x00')) shown ∧
          h'.name = String.ofList shown) ∧
        ((Text.utf8 username).length ≤ 31 → '\x00' ∉ username.toList → h'.name = username) := by
  refine ⟨fun b => exists_decode_iff, fun b h => encode_of_decode, decode_encode,
    fun h => ⟨rfl, rfl, h.take_drop_encode_reply, ?_⟩, fun h h' => reply_eq_reply_iff,
    fun sourceId username password => ?_⟩
  · exact reply_eq_reply_iff.mpr ⟨rfl, rfl⟩
  · exact ⟨FixedBytes.bytes_padded 31 _, FixedBytes.bytes_padded 7 _, _, decode_encode _,
      name_ofClient sourceId username password, exists_cut_name_ofClient sourceId username password,
      name_ofClient_of_short sourceId password⟩

/-- The last of these 31 characters has two bytes, and the cut is between them. A shorter name comes
back as it was. -/
theorem record_faithful_inside_character :
    (∃ h, decode (ofClient 7 "abcdefghijklmnopqrstuvwxyz1234ü" "secret").encode = .ok h ∧
      h.encode = (ofClient 7 "abcdefghijklmnopqrstuvwxyz1234ü" "secret").encode ∧
      h.name = "abcdefghijklmnopqrstuvwxyz1234\ufffd") ∧
    ∃ h, decode (ofClient 7 "Zoë" "").encode = .ok h ∧ h.name = "Zoë" := by
  obtain ⟨-, hwrite, -, -, -, hclient⟩ := record_faithful
  constructor
  · obtain ⟨-, -, h, hread, hname, -⟩ := hclient 7 "abcdefghijklmnopqrstuvwxyz1234ü" "secret"
    refine ⟨h, hread, hwrite _ _ hread, hname.trans ?_⟩
    decide +kernel
  · obtain ⟨-, -, h, hread, -, -, hshort⟩ := hclient 7 "Zoë" ""
    exact ⟨h, hread, hshort (by decide +kernel) (by decide +kernel)⟩

end Handshake

end GameLobby
