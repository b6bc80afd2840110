import GameLobby.Proofs.Frame.Stream

/-!
# The grammar of frames

At the front of any bytes is a sound frame, a header with a fault, or the start of a frame that is
cut off (`front_cases`). So bytes are a run of frames, the longest that they start with, and then
what stops the reader (`Stream.Stops`): a header with a fault costs its 28 bytes, and a frame that
is cut off costs all of it. None of this depends on how the bytes are cut into pieces. Main
statement: `frames_longest_run`.
-/

namespace GameLobby

/-! ## Headers -/

namespace FrameHeader

/-- Any 28 bytes are those of a header. -/
theorem encode_decode {b : Bytes} (h : b.length = size) : (decode b).encode = b := by
  have hsize : size = 28 := rfl
  have hword : ∀ i, i + 4 ≤ 28 → Bytes.ofUInt32 (Bytes.uint32At b i) = (b.drop i).take 4 :=
    fun i hi => Bytes.ofUInt32_uint32At (by omega)
  have hall : b.take (4 + 4 + 4 + 4 + 4 + 4 + 4) = b := List.take_of_length_le (by omega)
  simp only [List.take_add] at hall
  unfold encode decode
  dsimp only
  rw [hword 0 (by omega), hword 4 (by omega), hword 8 (by omega), hword 12 (by omega),
    hword 16 (by omega), hword 20 (by omega), hword 24 (by omega), List.drop_zero]
  exact hall

/-- `e` is the fault of a header. A check is made only if the header passes those before it. -/
inductive Faulty (d : Direction) (h : FrameHeader) : FrameError → Prop where
  | magic (hmagic : h.magic ≠ magicNumber) : Faulty d h (.badMagic h.magic)
  | source (hmagic : h.magic = magicNumber) (hsource : h.sourceId ≠ d.endpoints.1) :
    Faulty d h (.badSource h.sourceId)
  | destination (hmagic : h.magic = magicNumber) (hsource : h.sourceId = d.endpoints.1)
      (hdestination : h.destinationId ≠ d.endpoints.2) :
    Faulty d h (.badDestination h.destinationId)
  | size (hmagic : h.magic = magicNumber) (hsource : h.sourceId = d.endpoints.1)
      (hdestination : h.destinationId = d.endpoints.2)
      (hsize : maxPayload < h.payloadSize.toNat) :
    Faulty d h (.payloadTooLarge h.payloadSize)

theorem fault?_eq_some_iff {d : Direction} {h : FrameHeader} {e : FrameError} :
    h.fault? d = some e ↔ h.Faulty d e := by
  unfold fault?
  constructor
  · intro hfault
    split at hfault
    · rename_i hmagic
      cases hfault
      exact .magic hmagic
    rename_i hmagic
    split at hfault
    · rename_i hsource
      cases hfault
      exact .source (Decidable.not_not.mp hmagic) hsource
    rename_i hsource
    split at hfault
    · rename_i hdestination
      cases hfault
      exact .destination (Decidable.not_not.mp hmagic) (Decidable.not_not.mp hsource) hdestination
    rename_i hdestination
    split at hfault
    · rename_i hsize
      cases hfault
      exact .size (Decidable.not_not.mp hmagic) (Decidable.not_not.mp hsource)
        (Decidable.not_not.mp hdestination) hsize
    · cases hfault
  · intro hfault
    cases hfault with
    | magic hmagic => simp [hmagic]
    | source hmagic hsource => simp [hmagic, hsource]
    | destination hmagic hsource hdestination => simp [hmagic, hsource, hdestination]
    | size hmagic hsource hdestination hsize => simp [hmagic, hsource, hdestination, hsize]

end FrameHeader

namespace Stream

/-! ## What is at the front -/

/-- Bytes that end before a frame is complete, and what a reader says if the stream ends there. -/
inductive Cut (d : Direction) : Bytes → FrameError → Prop where
  | boundary : Cut d [] .closed
  | header {b : Bytes} (hne : b ≠ []) (hlt : b.length < FrameHeader.size) :
    Cut d b (.stream .endInHeader)
  | payload {h : FrameHeader} {b : Bytes} (hfault : h.fault? d = none)
      (hlt : b.length < h.payloadSize.toNat) :
    Cut d (h.encode ++ b) (.stream .endInPayload)

/-- A frame is at the front, or a header with a fault, or a frame that is cut off. -/
theorem front_cases (d : Direction) (b : Bytes) :
    (∃ f rest, Frame.Sound d f ∧ b = f.encode ++ rest) ∨
      (∃ h rest e, FrameHeader.Faulty d h e ∧ b = h.encode ++ rest) ∨ ∃ e, Cut d b e := by
  by_cases hlt : b.length < FrameHeader.size
  · right
    right
    by_cases hne : b = []
    · subst hne
      exact ⟨_, .boundary⟩
    · exact ⟨_, .header hne hlt⟩
  have hhead : (b.take FrameHeader.size).length = FrameHeader.size :=
    List.length_take_of_le (Nat.le_of_not_lt hlt)
  let h := FrameHeader.decode (b.take FrameHeader.size)
  have hb : b = h.encode ++ b.drop FrameHeader.size := by
    rw [FrameHeader.encode_decode hhead, List.take_append_drop]
  cases hfault : h.fault? d with
  | some e => exact .inr (.inl ⟨h, _, e, FrameHeader.fault?_eq_some_iff.mp hfault, hb⟩)
  | none =>
    by_cases hshort : (b.drop FrameHeader.size).length < h.payloadSize.toNat
    · refine .inr (.inr ⟨.stream .endInPayload, ?_⟩)
      rw [hb]
      exact .payload hfault hshort
    · let f : Frame := ⟨h, (b.drop FrameHeader.size).take h.payloadSize.toNat⟩
      have hsize : f.header.payloadSize.toNat = f.payload.length :=
        (List.length_take_of_le (Nat.le_of_not_lt hshort)).symm
      refine .inl ⟨f, (b.drop FrameHeader.size).drop h.payloadSize.toNat, ⟨hfault, hsize⟩, ?_⟩
      show b = h.encode ++ (b.drop FrameHeader.size).take h.payloadSize.toNat ++ _
      rw [List.append_assoc, List.take_append_drop]
      exact hb

/-- A header with a fault is taken, and nothing behind it. -/
theorem next_of_faulty {d : Direction} {s : Stream} {h : FrameHeader} {e : FrameError}
    {rest : Bytes} (hfault : h.Faulty d e) (hs : s.bytes = h.encode ++ rest) :
    ∃ s', next d s = (.failed e, s') ∧ s'.bytes = rest := by
  obtain ⟨behind, hheader, hbehind⟩ := gather_of_append hs
  rw [FrameHeader.length_encode] at hheader
  refine ⟨⟨behind, s.ending⟩, ?_, hbehind⟩
  simp [next, hheader, FrameHeader.fault?_eq_some_iff.mpr hfault]

/-- The front of bytes that are fewer than asked for is all of them. -/
theorem gather_all {pieces : List Bytes} {n : Nat} (h : pieces.flatten.length ≤ n) :
    ∃ left, gather n pieces = (pieces.flatten, left) ∧ left.flatten = [] := by
  refine ⟨(gather n pieces).2, Prod.ext ?_ rfl, ?_⟩
  · rw [gather_fst, List.take_of_length_le h]
  · rw [flatten_gather_snd, List.drop_of_length_le h]

/-- A frame that is cut off is left alone as long as more may come, and is taken otherwise. -/
theorem next_of_cut {d : Direction} {s : Stream} {e : FrameError} (hcut : Cut d s.bytes e) :
    (s.ending = .pending → next d s = (.pending, s)) ∧
      (s.ending ≠ .pending → ∃ s', next d s = (Read.short s.ending e, s') ∧ s'.bytes = []) := by
  obtain ⟨left, hpending, hended, hleft⟩ : ∃ left : List Bytes,
      (s.ending = .pending → next d s = (.pending, s)) ∧
        (s.ending ≠ .pending → next d s = (Read.short s.ending e, ⟨left, s.ending⟩)) ∧
        left.flatten = [] := by
    generalize hb : s.bytes = b at hcut
    have hpieces : s.pieces.flatten = b := hb
    cases hcut with
    | boundary =>
      have hsize : FrameHeader.size ≠ 0 := by decide
      obtain ⟨left, hall, hleft⟩ := gather_all (n := FrameHeader.size)
        (show s.pieces.flatten.length ≤ _ by rw [hpieces]; exact Nat.zero_le _)
      rw [hpieces] at hall
      refine ⟨left, ?_, ?_, hleft⟩ <;>
        cases hending : s.ending <;> simp [next, hall, hsize, hending, Read.short]
    | header hne hlt =>
      obtain ⟨left, hall, hleft⟩ := gather_all (n := FrameHeader.size)
        (show s.pieces.flatten.length ≤ _ by rw [hpieces]; exact Nat.le_of_lt hlt)
      rw [hpieces] at hall
      refine ⟨left, ?_, ?_, hleft⟩ <;>
        cases hending : s.ending <;> simp [next, hall, hlt, hne, hending, Read.short]
    | @payload h b hfault hlt =>
      obtain ⟨behind, hheader, hbehind⟩ := gather_of_append hpieces
      obtain ⟨left, hall, hleft⟩ := gather_all (n := h.payloadSize.toNat)
        (hbehind ▸ Nat.le_of_lt hlt)
      rw [FrameHeader.length_encode] at hheader
      rw [hbehind] at hall
      refine ⟨left, ?_, ?_, hleft⟩ <;>
        cases hending : s.ending <;> simp [next, hheader, hfault, hall, hlt, hending, Read.short]
  exact ⟨hpending, fun hending => ⟨_, hended hending, hleft⟩⟩

/-- What a reader makes of the front of a stream. -/
theorem next_cases (d : Direction) (s : Stream) :
    (∃ f rest s', Frame.Sound d f ∧ s.bytes = f.encode ++ rest ∧ next d s = (.frame f, s')) ∨
      (∃ h e rest s', FrameHeader.Faulty d h e ∧ s.bytes = h.encode ++ rest ∧
        next d s = (.failed e, s')) ∨
      (s.ending = .pending ∧ next d s = (.pending, s)) ∨
      ∃ e s', s.ending ≠ .pending ∧ next d s = (.failed e, s') := by
  rcases front_cases d s.bytes with ⟨f, rest, hf, hs⟩ | ⟨h, rest, e, hfault, hs⟩ | ⟨e, hcut⟩
  · obtain ⟨s', hnext, -, -⟩ := next_of_bytes hf hs
    exact .inl ⟨f, rest, s', hf, hs, hnext⟩
  · obtain ⟨s', hnext, -⟩ := next_of_faulty hfault hs
    exact .inr (.inl ⟨h, e, rest, s', hfault, hs, hnext⟩)
  · obtain ⟨hpending, hended⟩ := next_of_cut hcut
    cases hending : s.ending with
    | pending => exact .inr (.inr (.inl ⟨rfl, hpending hending⟩))
    | finished | reset =>
      obtain ⟨s', hnext, -⟩ := hended (by simp [hending])
      rw [hending] at hnext
      exact .inr (.inr (.inr ⟨_, s', nofun, hnext⟩))

/-- What is read as a frame is at the front. -/
theorem front_of_next {d : Direction} {s : Stream} {f : Frame} (h : (next d s).1 = .frame f) :
    f.Sound d ∧ ∃ rest, s.bytes = f.encode ++ rest := by
  rcases next_cases d s with ⟨g, rest, _, hg, hs, hnext⟩ | ⟨_, _, _, _, -, -, hnext⟩ |
    ⟨-, hnext⟩ | ⟨_, _, -, hnext⟩
  all_goals
    rw [hnext] at h
    cases h
  exact ⟨hg, rest, hs⟩

/-- A reader that waits has taken nothing, and more may come. -/
theorem next_of_pending {d : Direction} {s : Stream} (h : (next d s).1 = .pending) :
    next d s = (.pending, s) ∧ s.ending = .pending := by
  rcases next_cases d s with ⟨_, _, _, -, -, hnext⟩ | ⟨_, _, _, _, -, -, hnext⟩ |
    ⟨hending, hnext⟩ | ⟨_, _, -, hnext⟩
  · rw [hnext] at h
    cases h
  · rw [hnext] at h
    cases h
  · exact ⟨hnext, hending⟩
  · rw [hnext] at h
    cases h

/-- What a reader made of the front does not change by what comes later. -/
theorem next_of_more {d : Direction} {s s' : Stream} {more : Bytes} (hending : s.ending = .pending)
    (hmade : (next d s).1 ≠ .pending) (hs' : s'.bytes = s.bytes ++ more) :
    (next d s').1 = (next d s).1 := by
  rcases next_cases d s with ⟨f, rest, _, hf, hs, hnext⟩ | ⟨h, e, rest, _, hfault, hs, hnext⟩ |
    ⟨-, hnext⟩ | ⟨_, _, hended, -⟩
  · rw [hs, List.append_assoc] at hs'
    obtain ⟨_, hnext', -, -⟩ := next_of_bytes hf hs'
    rw [hnext, hnext']
  · rw [hs, List.append_assoc] at hs'
    obtain ⟨_, hnext', -⟩ := next_of_faulty hfault hs'
    rw [hnext, hnext']
  · exact absurd (congrArg Prod.fst hnext) hmade
  · exact absurd hending hended

/-! ## Runs of frames -/

/-- How reading stops: the bytes that the failing read takes, those that it leaves, and the error.
Only a header with a fault leaves any. -/
inductive Stops (d : Direction) : Ending → Bytes → Bytes → FrameError → Prop where
  | rejected {ending : Ending} {h : FrameHeader} {rest : Bytes} {e : FrameError}
      (hfault : h.Faulty d e) : Stops d ending h.encode rest e
  | finished {b : Bytes} {e : FrameError} (hcut : Cut d b e) : Stops d .finished b [] e
  | reset {b : Bytes} {e : FrameError} (hcut : Cut d b e) : Stops d .reset b [] (.stream .reset)

theorem next_of_stops {d : Direction} {s : Stream} {taken rest : Bytes} {e : FrameError}
    (h : Stops d s.ending taken rest e) (hs : s.bytes = taken ++ rest) :
    ∃ s', next d s = (.failed e, s') ∧ s'.bytes = rest := by
  generalize hending : s.ending = ending at h
  cases h with
  | rejected hfault => exact next_of_faulty hfault hs
  | finished hcut =>
    rw [List.append_nil] at hs
    obtain ⟨s', hnext, hrest⟩ := (next_of_cut (hs ▸ hcut)).2 (by simp [hending])
    exact ⟨s', by rw [hnext, hending]; rfl, hrest⟩
  | reset hcut =>
    rw [List.append_nil] at hs
    obtain ⟨s', hnext, hrest⟩ := (next_of_cut (hs ▸ hcut)).2 (by simp [hending])
    exact ⟨s', by rw [hnext, hending]; rfl, hrest⟩

/-- Bytes that come to an end are a run of frames and then something that stops the reader. -/
theorem exists_run (d : Direction) {ending : Ending} (hending : ending ≠ .pending) (b : Bytes) :
    ∃ (fs : List Frame) (taken rest : Bytes) (e : FrameError),
      b = fs.flatMap Frame.encode ++ (taken ++ rest) ∧ (∀ f ∈ fs, f.Sound d) ∧
      Stops d ending taken rest e := by
  rcases front_cases d b with ⟨f, rest, hf, hb⟩ | ⟨h, rest, e, hfault, hb⟩ | ⟨e, hcut⟩
  · have hlt : rest.length < b.length := by
      rw [hb, List.length_append, Frame.encode, List.length_append, FrameHeader.length_encode,
        FrameHeader.size]
      omega
    obtain ⟨fs, taken, rest', e, hrest, hfs, hstops⟩ := exists_run d hending rest
    refine ⟨f :: fs, taken, rest', e, ?_, List.forall_mem_cons.mpr ⟨hf, hfs⟩, hstops⟩
    rw [hb, hrest, List.flatMap_cons, List.append_assoc]
  · exact ⟨[], h.encode, rest, e, hb, List.forall_mem_nil _, .rejected hfault⟩
  · cases ending with
    | pending => exact absurd rfl hending
    | finished => exact ⟨[], b, [], e, by simp, List.forall_mem_nil _, .finished hcut⟩
    | reset => exact ⟨[], b, [], _, by simp, List.forall_mem_nil _, .reset hcut⟩
termination_by b.length

/-- There is fuel for every run of frames that bytes start with. -/
theorem exists_fuel {s : Stream} {fs : List Frame} {after : Bytes}
    (hs : s.bytes = fs.flatMap Frame.encode ++ after) :
    ∃ fuel, s.bytes.length + 1 = fs.length + (fuel + 1) := by
  refine ⟨s.bytes.length - fs.length, ?_⟩
  have hle := length_le_of_flatMap fs
  have hlen := congrArg List.length hs
  rw [List.length_append] at hlen
  omega

/-- No run of frames at the front is longer than what is read. -/
theorem prefix_frames {d : Direction} {s : Stream} {gs : List Frame} {after : Bytes}
    (hgs : ∀ g ∈ gs, g.Sound d) (hs : s.bytes = gs.flatMap Frame.encode ++ after) :
    gs <+: (frames d s).1 := by
  obtain ⟨fuel, hfuel⟩ := exists_fuel hs
  obtain ⟨s', -, -, hframes⟩ := framesUpTo_append hgs hs (fuel + 1)
  unfold frames
  rw [hfuel, hframes]
  exact List.prefix_append ..

/-- A run of frames is read, and then what stops the reader. -/
theorem frames_of_run {d : Direction} {s : Stream} {fs : List Frame} {taken rest : Bytes}
    {e : FrameError} (hfs : ∀ f ∈ fs, f.Sound d)
    (hs : s.bytes = fs.flatMap Frame.encode ++ (taken ++ rest))
    (hstops : Stops d s.ending taken rest e) :
    ∃ s', frames d s = (fs, some e, s') ∧ s'.bytes = rest := by
  obtain ⟨fuel, hfuel⟩ := exists_fuel hs
  obtain ⟨s₁, hbytes, hending, hframes⟩ := framesUpTo_append hfs hs (fuel + 1)
  obtain ⟨s', hnext, hrest⟩ := next_of_stops (hending ▸ hstops) hbytes
  refine ⟨s', ?_, hrest⟩
  unfold frames
  rw [hfuel, hframes, framesUpTo, hnext]
  dsimp only
  rw [List.append_nil]

/-- **Grammar.** Whatever bytes come before a stream ends or is reset, they are a run of frames, the
longest that they start with, then the bytes that the failing read takes, and then those that are
left. Wherever they are cut, these frames are read, and this error, and this is left. -/
theorem frames_longest_run (d : Direction) (b : Bytes) {ending : Ending}
    (hending : ending ≠ .pending) :
    ∃ (fs : List Frame) (taken rest : Bytes) (e : FrameError),
      b = fs.flatMap Frame.encode ++ (taken ++ rest) ∧
      b.length = (fs.flatMap Frame.encode).length + taken.length + rest.length ∧
      (∀ f ∈ fs, f.Sound d) ∧
      (∀ (gs : List Frame) (after : Bytes), (∀ g ∈ gs, g.Sound d) →
        b = gs.flatMap Frame.encode ++ after → gs <+: fs) ∧
      Stops d ending taken rest e ∧
      ∀ pieces : List Bytes, pieces.flatten = b →
        ∃ s, frames d ⟨pieces, ending⟩ = (fs, some e, s) ∧ s.bytes = rest := by
  obtain ⟨fs, taken, rest, e, hb, hfs, hstops⟩ := exists_run d hending b
  have hread : ∀ pieces : List Bytes, pieces.flatten = b →
      ∃ s, frames d ⟨pieces, ending⟩ = (fs, some e, s) ∧ s.bytes = rest :=
    fun pieces hpieces => @frames_of_run d ⟨pieces, ending⟩ fs taken rest e hfs
      (hpieces.trans hb) hstops
  refine ⟨fs, taken, rest, e, hb, ?_, hfs, fun gs after hgs hrun => ?_, hstops, hread⟩
  · rw [hb, List.length_append, List.length_append, Nat.add_assoc]
  · have hone : [b].flatten = b := List.append_nil b
    obtain ⟨s, hframes, -⟩ := hread [b] hone
    have hprefix := @prefix_frames d ⟨[b], ending⟩ gs after hgs (hone.trans hrun)
    rw [hframes] at hprefix
    exact hprefix

/-- A sign of life, a header of zeroes and three bytes behind it, whole and cut inside both headers:
the frame is read, the header is rejected, and the three bytes are left. -/
theorem frames_of_rejected :
    let ping := Frame.carrying .clientToServer .ping [] .wordSum
    let b := ping.encode ++ (List.replicate 28 0 ++ [1, 2, 3])
    ∃ whole cut,
      frames .clientToServer ⟨[b], .finished⟩ = ([ping], some (.badMagic 0), whole) ∧
      frames .clientToServer ⟨b.chunks 19, .finished⟩ = ([ping], some (.badMagic 0), cut) ∧
      whole.bytes = [1, 2, 3] ∧ cut.bytes = [1, 2, 3] := by
  intro ping b
  obtain ⟨fs, taken, rest, e, -, -, -, -, -, hread⟩ :=
    @frames_longest_run .clientToServer b .finished (by decide)
  have hwhole : frames .clientToServer ⟨[b], .finished⟩ =
      ([ping], some (.badMagic 0), ⟨[[1, 2, 3]], .finished⟩) := by decide
  obtain ⟨whole, hframes, hrest⟩ := hread [b] (List.append_nil b)
  obtain ⟨cut, hframes', hrest'⟩ := hread (b.chunks 19) (Bytes.flatten_chunks 19 b)
  rw [hwhole] at hframes
  cases hframes
  exact ⟨_, cut, hwhole, hframes', rfl, hrest'.trans hrest.symm⟩

end Stream

end GameLobby
