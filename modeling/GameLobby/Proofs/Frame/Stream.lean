import GameLobby.Frame.Stream

/-!
# Frames read back

A frame in front of a stream is read up to its last byte and no further, wherever the stream is cut
(`next_of_bytes`). So a reader of a direction gets the frames that were written for it, and then
whatever it gets of the bytes after them (`framesUpTo_append`). Main statement: `frames_of_written`.
-/

namespace GameLobby

/-- A reader of direction `d` finds no fault in the header of a frame, and the payload ends where
the header says. -/
structure Frame.Sound (d : Direction) (f : Frame) : Prop where
  faultless : f.header.fault? d = none
  size_eq : f.header.payloadSize.toNat = f.payload.length

namespace Frame

theorem sound_carrying (d : Direction) (kind : FrameKind) {payload : Bytes} (checksum : Checksum)
    (h : payload.length ≤ FrameHeader.maxPayload) :
    (carrying d kind payload checksum).Sound d := by
  have hmax : FrameHeader.maxPayload = 1024 := rfl
  have hsize : (UInt32.ofNat payload.length).toNat = payload.length := by
    rw [UInt32.toNat_ofNat']
    omega
  refine ⟨?_, hsize⟩
  have hle : ¬ FrameHeader.maxPayload < (UInt32.ofNat payload.length).toNat := by
    rw [hsize]
    exact Nat.not_lt.mpr h
  show (FrameHeader.carrying d kind.code payload checksum).fault? d = none
  unfold FrameHeader.fault? FrameHeader.carrying
  dsimp only
  rw [if_neg (not_not_intro rfl), if_neg (not_not_intro rfl), if_neg (not_not_intro rfl),
    if_neg hle]

instance (d : Direction) (f : Frame) : Decidable (f.Sound d) :=
  decidable_of_iff (f.header.fault? d = none ∧ f.header.payloadSize.toNat = f.payload.length)
    ⟨fun h => ⟨h.1, h.2⟩, fun h => ⟨h.faultless, h.size_eq⟩⟩

theorem Sound.length_payload_le {d : Direction} {f : Frame} (h : f.Sound d) :
    f.payload.length ≤ FrameHeader.maxPayload := by
  refine Nat.le_of_not_lt fun hlt => ?_
  have hfault := h.faultless
  unfold FrameHeader.fault? at hfault
  rw [h.size_eq, if_pos hlt] at hfault
  repeat' split at hfault
  all_goals cases hfault

/-- The checksum in the header is that of the payload. -/
theorem checksumFault?_carrying (d : Direction) (kind : FrameKind) (payload : Bytes)
    (checksum : Checksum) : (carrying d kind payload checksum).checksumFault? checksum = none :=
  if_neg (not_not_intro rfl)

end Frame

namespace Stream

/-! ## One frame -/

/-- Bytes in front are gathered from as many pieces as they lie in, and those behind them are
left. -/
theorem gather_of_append {pieces : List Bytes} {b rest : Bytes}
    (h : pieces.flatten = b ++ rest) :
    ∃ left, gather b.length pieces = (b, left) ∧ left.flatten = rest := by
  refine ⟨(gather b.length pieces).2, Prod.ext ?_ rfl, ?_⟩
  · rw [gather_fst, h, List.take_left]
  · rw [flatten_gather_snd, h, List.drop_left]

/-- The frame in front is read, and what comes after it is left. -/
theorem next_of_bytes {d : Direction} {s : Stream} {f : Frame} {rest : Bytes} (hf : f.Sound d)
    (hs : s.bytes = f.encode ++ rest) :
    ∃ s', next d s = (.frame f, s') ∧ s'.bytes = rest ∧ s'.ending = s.ending := by
  have hbytes : s.pieces.flatten = f.header.encode ++ (f.payload ++ rest) :=
    hs.trans (List.append_assoc ..)
  obtain ⟨behind, hheader, hbehind⟩ := gather_of_append hbytes
  obtain ⟨left, hpayload, hleft⟩ := gather_of_append hbehind
  rw [FrameHeader.length_encode] at hheader
  refine ⟨⟨left, s.ending⟩, ?_, hleft, rfl⟩
  simp [next, hheader, hf.faultless, hf.size_eq, hpayload]

/-- A stream that has ended gives no frame. -/
theorem next_of_finished {d : Direction} {s : Stream} (hs : s.bytes = [])
    (hending : s.ending = .finished) :
    ∃ s', next d s = (.failed .closed, s') ∧ s'.bytes = [] := by
  have hnone : (gather FrameHeader.size s.pieces).1 = [] := by
    rw [gather_fst, show s.pieces.flatten = [] from hs, List.take_nil]
  have hleft : (gather FrameHeader.size s.pieces).2.flatten = [] := by
    rw [flatten_gather_snd, show s.pieces.flatten = [] from hs, List.drop_nil]
  have hsize : FrameHeader.size ≠ 0 := by decide
  refine ⟨⟨(gather FrameHeader.size s.pieces).2, s.ending⟩, ?_, hleft⟩
  simp [next, hnone, hsize, hending, Read.short]

/-- Whatever is read as a frame is a sound one. -/
theorem sound_of_next {d : Direction} {s s' : Stream} {f : Frame}
    (h : next d s = (.frame f, s')) : f.Sound d := by
  have hshort : ∀ e, Read.short s.ending e ≠ .frame f := by
    intro e
    unfold Read.short
    split <;> nofun
  unfold next at h
  dsimp only at h
  split at h
  · split at h
    · cases h
    · exact absurd (congrArg Prod.fst h) (hshort _)
  split at h
  · cases h
  rename_i hfault
  split at h
  · split at h
    · cases h
    · exact absurd (congrArg Prod.fst h) (hshort _)
  · rename_i hsize
    cases h
    have hgathered : ∀ n pieces, (gather n pieces).1.length ≤ n := fun n pieces => by
      rw [gather_fst]
      exact List.length_take_le ..
    exact ⟨hfault, Nat.le_antisymm (Nat.not_lt.mp hsize) (hgathered _ _)⟩

/-! ## Many frames -/

/-- Frames in front are read one after the other, and then the reading goes on behind them. -/
theorem framesUpTo_append {d : Direction} {fs : List Frame} (hfs : ∀ f ∈ fs, f.Sound d)
    {s : Stream} {rest : Bytes} (hs : s.bytes = fs.flatMap Frame.encode ++ rest) (fuel : Nat) :
    ∃ s', s'.bytes = rest ∧ s'.ending = s.ending ∧
      framesUpTo d (fs.length + fuel) s =
        (fs ++ (framesUpTo d fuel s').1, (framesUpTo d fuel s').2) := by
  induction fs generalizing s with
  | nil =>
    refine ⟨s, hs, rfl, ?_⟩
    rw [List.length_nil, Nat.zero_add, List.nil_append]
  | cons f fs ih =>
    obtain ⟨hf, hfs⟩ := List.forall_mem_cons.mp hfs
    rw [List.flatMap_cons, List.append_assoc] at hs
    obtain ⟨s₁, hnext, hbytes, hending⟩ := next_of_bytes hf hs
    obtain ⟨s', hrest, hending', hframes⟩ := ih hfs hbytes
    refine ⟨s', hrest, hending'.trans hending, ?_⟩
    rw [List.length_cons, Nat.add_right_comm, framesUpTo, hnext]
    dsimp only
    rw [hframes]
    rfl

/-- Whatever is read as frames are sound ones. -/
theorem sound_of_mem_framesUpTo {d : Direction} {s : Stream} {fuel : Nat} {f : Frame}
    (h : f ∈ (framesUpTo d fuel s).1) : f.Sound d := by
  induction fuel generalizing s with
  | zero => cases h
  | succ fuel ih =>
    unfold framesUpTo at h
    split at h
    · rename_i g s' hnext
      rcases List.mem_cons.mp h with rfl | h
      · exact sound_of_next hnext
      · exact ih h
    · cases h
    · cases h

/-- Every frame takes a header and more, so a stream holds fewer frames than bytes. -/
theorem length_le_of_flatMap (fs : List Frame) :
    fs.length ≤ (fs.flatMap Frame.encode).length := by
  induction fs with
  | nil => exact Nat.le_refl 0
  | cons f fs ih =>
    have hone : 1 ≤ f.encode.length := by
      rw [Frame.encode, List.length_append, FrameHeader.length_encode, FrameHeader.size]
      omega
    rw [List.flatMap_cons, List.length_append, List.length_cons]
    omega

/-- **Round trip.** Frames of at most 1024 bytes of payload that are written one after the other for
a direction are read as they were, headers and payloads, wherever the bytes are cut. Each passes the
check of its checksum. Then the stream has ended, and nothing is left of it. -/
theorem frames_of_written (d : Direction) (checksum : Checksum) (sent : List (FrameKind × Bytes))
    (hfit : ∀ p ∈ sent, p.2.length ≤ FrameHeader.maxPayload) (pieces : List Bytes)
    (hcut : pieces.flatten =
      sent.flatMap fun p => (Frame.carrying d p.1 p.2 checksum).encode) :
    let written := sent.map fun p => Frame.carrying d p.1 p.2 checksum
    ∃ rest, frames d ⟨pieces, .finished⟩ = (written, some .closed, rest) ∧ rest.bytes = [] ∧
      ∀ f ∈ written, f.checksumFault? checksum = none := by
  intro written
  have hsound : ∀ f ∈ written, f.Sound d := by
    intro f hf
    obtain ⟨p, hp, rfl⟩ := List.mem_map.mp hf
    exact Frame.sound_carrying d p.1 checksum (hfit p hp)
  have hbytes : (Stream.mk pieces .finished).bytes = written.flatMap Frame.encode ++ [] := by
    rw [List.append_nil, List.flatMap_map]
    exact hcut
  -- there is fuel left when all frames are read
  obtain ⟨fuel, hfuel⟩ : ∃ fuel, (Stream.mk pieces .finished).bytes.length + 1 =
      written.length + (fuel + 1) := by
    refine ⟨(Stream.mk pieces .finished).bytes.length - written.length, ?_⟩
    have hle := length_le_of_flatMap written
    rw [hbytes, List.append_nil]
    omega
  obtain ⟨s', hrest, hending, hframes⟩ := framesUpTo_append hsound hbytes (fuel + 1)
  obtain ⟨rest, hclosed, hempty⟩ := @next_of_finished d s' hrest hending
  refine ⟨rest, ?_, hempty, ?_⟩
  · unfold frames
    rw [hfuel, hframes, framesUpTo, hclosed]
    dsimp only
    rw [List.append_nil]
  · intro f hf
    obtain ⟨p, -, rfl⟩ := List.mem_map.mp hf
    exact Frame.checksumFault?_carrying ..

/-- A sign of life and a message of two bytes, cut inside both headers and inside the payload. -/
theorem frames_of_two_written :
    ∃ rest, frames .clientToServer
        ⟨Bytes.chunks 19 (((Frame.carrying .clientToServer .ping [] .wordSum).encode ++
          (Frame.carrying .clientToServer .applicationMessage [7, 8] .wordSum).encode)),
          .finished⟩ =
      ([.carrying .clientToServer .ping [] .wordSum,
        .carrying .clientToServer .applicationMessage [7, 8] .wordSum], some .closed, rest) := by
  obtain ⟨rest, hread, -, -⟩ := frames_of_written .clientToServer .wordSum
    [(.ping, []), (.applicationMessage, [7, 8])] (by decide) (Bytes.chunks 19 _)
    (Bytes.flatten_chunks 19 _)
  exact ⟨rest, hread⟩

end Stream

end GameLobby
