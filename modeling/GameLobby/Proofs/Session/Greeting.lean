import GameLobby.Proofs.Frame.Grammar
import GameLobby.Proofs.Handshake
import GameLobby.Session.Basic

/-!
# The first frame

Which frames open a connection (`Frame.Opens`), and what a session makes of the front of its input
while it waits for one: it waits on, or takes a handshake (`Stream.Greets`), or ends
(`Stream.Refused`).
-/

namespace GameLobby

/-- A frame that opens a connection: a faultless header of the right kind, a payload of 52 bytes,
and the right checksum if it has to be right. -/
structure Frame.Opens (rules : Rules) (f : Frame) : Prop where
  sound : f.Sound .clientToServer
  kind_eq : f.header.kind? = some .handshakeConnect
  length_eq : f.payload.length = 52
  checksum_eq : rules.config.verifyHandshakeChecksum →
    rules.checksum f.payload = f.header.payloadChecksum

theorem Session.greet_eq_ok_iff {rules : Rules} {f : Frame} {handshake : Handshake} :
    greet rules f = .ok handshake ↔
      f.header.kind? = some .handshakeConnect ∧ Handshake.decode f.payload = .ok handshake ∧
        (rules.config.verifyHandshakeChecksum →
          rules.checksum f.payload = f.header.payloadChecksum) := by
  unfold greet Frame.checksumFault?
  by_cases hkind : f.header.kind? = some .handshakeConnect
  · rw [if_neg (not_not_intro hkind)]
    cases Handshake.decode f.payload with
    | error e => simp
    | ok handshake =>
      by_cases hchecksum : rules.checksum f.payload = f.header.payloadChecksum
      · simp [hkind, hchecksum]
      · cases rules.config.verifyHandshakeChecksum <;> simp [hkind, hchecksum]
  · simp [hkind]

theorem Frame.opens_iff {rules : Rules} {f : Frame} :
    f.Opens rules ↔
      f.Sound .clientToServer ∧ ∃ handshake, Session.greet rules f = .ok handshake := by
  constructor
  · intro h
    obtain ⟨handshake, hdecode⟩ := Handshake.exists_decode_iff.mpr h.length_eq
    exact ⟨h.sound, handshake, Session.greet_eq_ok_iff.mpr ⟨h.kind_eq, hdecode, h.checksum_eq⟩⟩
  · rintro ⟨hsound, handshake, hgreet⟩
    obtain ⟨hkind, hdecode, hchecksum⟩ := Session.greet_eq_ok_iff.mp hgreet
    exact ⟨hsound, hkind, Handshake.exists_decode_iff.mp ⟨handshake, hdecode⟩, hchecksum⟩

namespace Stream

variable {d : Direction} {s : Stream}

theorem frames_of_pending (h : (next d s).1 = .pending) : frames d s = ([], none, s) := by
  obtain ⟨heq, -⟩ := next_of_pending h
  rw [frames, framesUpTo, heq]

theorem frames_of_failed {e : FrameError} (h : (next d s).1 = .failed e) :
    ∃ rest, frames d s = ([], some e, rest) := by
  refine ⟨(next d s).2, ?_⟩
  rw [frames, framesUpTo, show next d s = (.failed e, (next d s).2) from Prod.ext h rfl]

theorem frames_of_frame {f : Frame} (h : (next d s).1 = .frame f) :
    ∃ (fs : List Frame) (stop : Option FrameError) (rest : Stream),
      frames d s = (f :: fs, stop, rest) := by
  rcases hrest : framesUpTo d s.bytes.length (next d s).2 with ⟨fs, stop, rest⟩
  refine ⟨fs, stop, rest, ?_⟩
  rw [frames, framesUpTo, show next d s = (.frame f, (next d s).2) from Prod.ext h rfl]
  dsimp only
  rw [hrest]

/-- What is at the front of a stream opens a connection. -/
def Greets (rules : Rules) (s : Stream) (handshake : Handshake) : Prop :=
  ∃ f : Frame, (s.next .clientToServer).1 = .frame f ∧ Session.greet rules f = .ok handshake

/-- What is at the front of a stream does not open a connection. -/
def Refused (rules : Rules) (s : Stream) : Prop :=
  (s.next .clientToServer).1 ≠ .pending ∧ ∀ handshake, ¬ s.Greets rules handshake

/-- A frame at the front that opens a connection is taken as the handshake that it holds. -/
theorem greets_iff {rules : Rules} {handshake : Handshake} {f : Frame} {rest : Bytes}
    (hs : s.bytes = f.encode ++ rest) (hopens : f.Opens rules) :
    s.Greets rules handshake ↔ Handshake.decode f.payload = .ok handshake := by
  obtain ⟨s', hnext, -, -⟩ := next_of_bytes hopens.sound hs
  have hfront : (s.next .clientToServer).1 = .frame f := by rw [hnext]
  constructor
  · rintro ⟨g, hg, hgreet⟩
    rw [hfront, Read.frame.injEq] at hg
    subst hg
    exact (Session.greet_eq_ok_iff.mp hgreet).2.1
  · intro hdecode
    exact ⟨f, hfront, Session.greet_eq_ok_iff.mpr ⟨hopens.kind_eq, hdecode, hopens.checksum_eq⟩⟩

/-- What is taken as a handshake is a frame at the front that opens a connection. -/
theorem Greets.opens {rules : Rules} {handshake : Handshake} (h : s.Greets rules handshake) :
    ∃ (f : Frame) (rest : Bytes), s.bytes = f.encode ++ rest ∧ f.Opens rules := by
  obtain ⟨f, hnext, hgreet⟩ := h
  obtain ⟨hsound, rest, hs⟩ := front_of_next hnext
  exact ⟨f, rest, hs, Frame.opens_iff.mpr ⟨hsound, handshake, hgreet⟩⟩

theorem Greets.made {rules : Rules} {handshake : Handshake} (h : s.Greets rules handshake) :
    (s.next .clientToServer).1 ≠ .pending := by
  obtain ⟨f, hnext, -⟩ := h
  rw [hnext]
  nofun

theorem Greets.congr {rules : Rules} {s' : Stream} {handshake : Handshake}
    (h : s.Greets rules handshake)
    (heq : (s'.next .clientToServer).1 = (s.next .clientToServer).1) :
    s'.Greets rules handshake := by
  unfold Greets
  rw [heq]
  exact h

theorem Refused.congr {rules : Rules} {s' : Stream} (h : s.Refused rules)
    (heq : (s'.next .clientToServer).1 = (s.next .clientToServer).1) : s'.Refused rules :=
  ⟨heq ▸ h.1, fun handshake hg => h.2 handshake (hg.congr heq.symm)⟩

end Stream

end GameLobby
