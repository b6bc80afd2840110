import GameLobby.Proofs.Registry.Capacity

/-!
# Stray seats

An account notes one room of somebody else in which it has a seat, and this is the seat that a
logout gives up. `Registry.Stray` are the seats that are not noted. They come from seats taken by
somebody without an account, or by somebody who has noted another room (`Call.Slips`); where no call
does so there are none (`WellFormed.stray_apply`, `not_stray`).

Main statement: `logOut_leaves_strays`, a logout leaves the stray seats and no others.
-/

namespace GameLobby.Registry

/-- A seat of a connection in a room of somebody else that no account notes. -/
structure Stray (reg : Registry) (conn : ConnectionId) (r : Room) : Prop where
  standing : r ∈ reg.rooms.values
  seated : conn ∈ r.players
  guest : r.owner ≠ conn
  unnoted : reg.joined? conn ≠ some r.id

/-- A call for a seat by somebody without an account, who cannot note it, or by somebody who keeps
the seat in the room noted before and will not note it any longer. -/
def Call.Slips (reg : Registry) : Call → Prop
  | .takeSeat id conn => reg.account? conn = none ∨ ∃ p, reg.joined? conn = some p ∧ p ≠ id
  | .changeSeat _ conn => reg.account? conn = none
  | _ => False

/-- How sessions make calls: rooms are offered by somebody who is logged in, under the own user
number, and edited in their listings only, and seats are taken by somebody who is logged in, through
a move. -/
def Call.Permitted (reg : Registry) : Call → Prop
  | .openRoom conn ownerUid _ => ∃ a, reg.account? conn = some a ∧ a.uid = ownerUid
  | .updateRoom _ edit => ∃ relisting, edit = Room.relist relisting
  | .changeSeat _ conn => ∃ a, reg.account? conn = some a
  | .takeSeat .. => False
  | _ => True

variable {reg reg' : Registry} {conn c : ConnectionId} {r' : Room}

/-! ## How seats go astray -/

/-- A room with a stray seat after a change in place, as it was before. -/
theorem Stray.of_edited {f : ConnectionId → Account → Account} {g : Room → Room}
    (he : reg.Edited reg' f g) (hg : Room.Orderly g) (hstray : reg'.Stray c r') :
    ∃ r ∈ reg.rooms.values, r.id = r'.id ∧ c ∈ (g r).players ∧ r.owner ≠ c ∧
      ∀ a, reg.account? c = some a → (f c a).joinedRoom ≠ some r.id := by
  obtain ⟨o, ho⟩ := (mem_rooms_iff reg').mp hstray.standing
  rw [he.roomOf?_eq] at ho
  obtain ⟨r, hr, rfl⟩ := Option.map_eq_some_iff.mp ho
  refine ⟨r, (mem_rooms_iff reg).mpr ⟨o, hr⟩, (hg.id_eq r).symm, hstray.seated,
    hg.owner_eq r ▸ hstray.guest, fun a ha hj => hstray.unnoted ?_⟩
  rw [hg.id_eq, joined?, he.account?_eq, ha]
  exact hj

/-- A guest's seat is astray if the guest's account, should there be one, does not note the room. -/
theorem stray_of_unnoted {r : Room} (hr : r ∈ reg.rooms.values) (hseat : c ∈ r.players)
    (hguest : r.owner ≠ c) (hnote : ∀ a, reg.account? c = some a → a.joinedRoom ≠ some r.id) :
    reg.Stray c r where
  standing := hr
  seated := hseat
  guest := hguest
  unnoted hj := by
    obtain ⟨a, ha, hja⟩ := Option.bind_eq_some_iff.mp hj
    exact hnote a ha hja

theorem stray_logIn {name : RawText} {outbox : ConnectionId}
    (hstray : (reg.logIn conn name outbox).2.Stray c r') : reg.Stray c r' := by
  rcases logIn_cases reg conn name outbox with ⟨e, heq⟩ | ⟨hnone, heq⟩
  · rw [heq] at hstray
    exact hstray
  have hrooms : (reg.logIn conn name outbox).2.rooms = reg.rooms := by rw [heq]
  refine stray_of_unnoted (hrooms ▸ hstray.standing) hstray.seated hstray.guest
    fun a ha hj => hstray.unnoted ?_
  have hne : c ≠ conn := by
    rintro rfl
    cases hnone.symm.trans ha
  rw [joined?, account?_logIn_of_none hnone, if_neg hne, ha]
  exact hj

theorem stray_openRoom {uid : UserId} {settings : RoomSettings}
    (hstray : (reg.openRoom conn uid settings).2.Stray c r') : reg.Stray c r' := by
  rcases openRoom_cases reg conn uid settings with ⟨e, heq⟩ | ⟨hnone, heq⟩
  · rw [heq] at hstray
    exact hstray
  have hjoined : (reg.openRoom conn uid settings).2.joined? c = reg.joined? c := by
    rw [heq]
    rfl
  obtain ⟨o, ho⟩ := (mem_rooms_iff _).mp hstray.standing
  rw [WellFormed.roomOf?_openRoom conn uid settings hnone] at ho
  split at ho
  · -- nobody but its owner has a seat in the new room
    cases ho
    exact absurd (List.mem_singleton.mp hstray.seated).symm hstray.guest
  · exact ⟨(mem_rooms_iff reg).mpr ⟨o, ho⟩, hstray.seated, hstray.guest,
      hjoined ▸ hstray.unnoted⟩

/-- The room that is found by the number of a room is that room. -/
theorem Filed.eq_of_id_eq (h : reg.Filed) {id : RoomId} {r room : Room}
    (hroom : reg.room? id = some room) (hr : r ∈ reg.rooms.values) (hid : r.id = id) : r = room :=
  Option.some.inj ((h.room?_of_mem hr).symm.trans (hid ▸ hroom))

namespace WellFormed

variable (h : reg.WellFormed)

include h

theorem stray_takeSeat {id : RoomId} (hstray : (reg.takeSeat id conn).2.Stray c r') :
    (∃ r, reg.Stray c r ∧ r.id = r'.id) ∨ (Call.takeSeat id conn).Slips reg ∧ conn = c := by
  rcases h.takeSeat_cases id conn with ⟨e, heq⟩ | ⟨room, hroom, -, -, he⟩
  · rw [heq] at hstray
    exact .inl ⟨r', hstray, rfl⟩
  obtain ⟨r, hr, hid, hseat, hguest, hnote⟩ :=
    hstray.of_edited he (.ite (.seat conn) .id)
  by_cases hc : c = conn
  · subst hc
    cases ha : reg.account? c with
    | none => exact .inr ⟨.inl ha, rfl⟩
    | some a =>
      have hnote := hnote a ha
      by_cases hrid : r.id = id
      · -- who takes a seat in a room of somebody else notes it
        have howner : room.owner ≠ c := h.eq_of_id_eq hroom hr hrid ▸ hguest
        rw [if_pos ⟨rfl, howner⟩, hrid] at hnote
        exact absurd rfl hnote
      · rw [if_neg hrid] at hseat
        by_cases hj : reg.joined? c = some r.id
        · exact .inr ⟨.inr ⟨r.id, hj, hrid⟩, rfl⟩
        · exact .inl ⟨r, ⟨hr, hseat, hguest, hj⟩, hid⟩
  · refine .inl ⟨r, stray_of_unnoted hr ?_ hguest fun a ha hj => hnote a ha ?_, hid⟩
    · split at hseat
      · exact (Room.mem_players_seat.mp hseat).resolve_right hc
      · exact hseat
    · rw [if_neg fun hcc => hc hcc.1]
      exact hj

theorem stray_changeSeat {id : RoomId} (hstray : (reg.changeSeat id conn).2.Stray c r') :
    (∃ r, reg.Stray c r ∧ r.id = r'.id) ∨ (Call.changeSeat id conn).Slips reg ∧ conn = c := by
  rcases h.changeSeat_cases id conn with ⟨e, heq⟩ | ⟨room, hroom, -, -, he⟩
  · rw [heq] at hstray
    exact .inl ⟨r', hstray, rfl⟩
  obtain ⟨r, hr, hid, hseat, hguest, hnote⟩ :=
    hstray.of_edited he (.ite (.seat conn) (.ite (.unseat conn) .id))
  by_cases hc : c = conn
  · subst hc
    cases ha : reg.account? c with
    | none => exact .inr ⟨ha, rfl⟩
    | some a =>
      have hnote := hnote a ha
      rw [if_pos rfl] at hnote
      by_cases hrid : r.id = id
      · have howner : room.owner ≠ c := h.eq_of_id_eq hroom hr hrid ▸ hguest
        rw [if_neg howner, hrid] at hnote
        exact absurd rfl hnote
      · rw [if_neg hrid] at hseat
        split at hseat
        · -- the seat in the room noted before is given up
          rcases (Room.mem_players_unseat.mp hseat).2 with hne | howner
          · exact absurd rfl hne
          · exact absurd howner.symm hguest
        · exact .inl ⟨r, ⟨hr, hseat, hguest, ‹_›⟩, hid⟩
  · refine .inl ⟨r, stray_of_unnoted hr ?_ hguest fun a ha hj => hnote a ha ?_, hid⟩
    · split at hseat
      · exact (Room.mem_players_seat.mp hseat).resolve_right hc
      · split at hseat
        · exact (Room.mem_players_unseat.mp hseat).1
        · exact hseat
    · rw [if_neg hc]
      exact hj

theorem stray_leaveSeat {id : RoomId} (hstray : (reg.leaveSeat id conn).2.Stray c r') :
    ∃ r, reg.Stray c r ∧ r.id = r'.id := by
  rcases h.leaveSeat_cases id conn with ⟨e, heq⟩ | ⟨room, hroom, -, -, -, he⟩
  · rw [heq] at hstray
    exact ⟨r', hstray, rfl⟩
  obtain ⟨r, hr, hid, hseat, hguest, hnote⟩ :=
    hstray.of_edited he (.ite (.unseat conn) .id)
  have hstill : c ∈ r.players ∧ ¬ (c = conn ∧ r.id = id) := by
    split at hseat
    · obtain ⟨hmem, hkeep⟩ := Room.mem_players_unseat.mp hseat
      refine ⟨hmem, fun hgone => ?_⟩
      rcases hkeep with hne | howner
      · exact hne hgone.1
      · exact hguest (howner.symm.trans hgone.1.symm)
    · exact ⟨hseat, fun hgone => absurd hgone.2 ‹_›⟩
  refine ⟨r, stray_of_unnoted hr hstill.1 hguest fun a ha hj => hnote a ha ?_, hid⟩
  rw [if_neg]
  · exact hj
  · rintro ⟨hc, hnoted⟩
    exact hstill.2 ⟨hc, Option.some.inj (hj.symm.trans hnoted)⟩

theorem stray_closeRoom (hstray : (reg.closeRoom conn).2.Stray c r') : reg.Stray c r' := by
  obtain ⟨o, ho⟩ := (mem_rooms_iff _).mp hstray.standing
  rw [roomOf?_closeRoom] at ho
  split at ho
  · cases ho
  rename_i hne
  refine stray_of_unnoted ((mem_rooms_iff reg).mpr ⟨o, ho⟩) hstray.seated hstray.guest
    fun a ha hj => hstray.unnoted ?_
  -- the note is of a room that stays, so it is not forgotten
  rw [joined?, account?_closeRoom, ha, Option.map_some,
    forget_of_ne (hj ▸ h.id_ne_of_owner_ne ho hne)]
  exact hj

/-- Whoever logs out keeps the stray seats and no others. -/
theorem mem_players_logOut_iff {a : Account} (ha : reg.account? conn = some a) :
    r' ∈ (reg.logOut conn).2.rooms.values ∧ conn ∈ r'.players ↔ reg.Stray conn r' := by
  have hjoined : reg.joined? conn = a.joinedRoom := joined?_eq ha
  rw [mem_rooms_iff]
  constructor
  · rintro ⟨⟨o, ho⟩, hseat⟩
    rw [roomOf?_logOut h.toFiled ha] at ho
    split at ho
    · cases ho
    rename_i hne
    obtain ⟨r, hr, rfl⟩ := Option.map_eq_some_iff.mp ho
    have hguest : r.owner ≠ conn := fun howner => hne ((h.owner_eq hr).symm.trans howner)
    split at hseat
    · rcases (Room.mem_players_unseat.mp hseat).2 with hself | howner
      · exact absurd rfl hself
      · exact absurd howner.symm hguest
    · rename_i hnote
      rw [if_neg hnote]
      exact ⟨(mem_rooms_iff reg).mpr ⟨o, hr⟩, hseat, hguest, hjoined ▸ hnote⟩
  · intro hstray
    obtain ⟨o, hr⟩ := (mem_rooms_iff reg).mp hstray.standing
    have hne : o ≠ conn := fun ho => hstray.guest ((h.owner_eq hr).trans ho)
    refine ⟨⟨o, ?_⟩, hstray.seated⟩
    rw [roomOf?_logOut h.toFiled ha, if_neg hne, hr, Option.map_some,
      if_neg (hjoined ▸ hstray.unnoted)]

theorem stray_logOut (hstray : (reg.logOut conn).2.Stray c r') :
    ∃ r, reg.Stray c r ∧ r.id = r'.id := by
  rcases logOut_cases reg conn with ⟨-, heq⟩ | ⟨a, ha, -⟩
  · rw [heq] at hstray
    exact ⟨r', hstray, rfl⟩
  by_cases hc : c = conn
  · subst hc
    exact ⟨r', (h.mem_players_logOut_iff ha).mp ⟨hstray.standing, hstray.seated⟩, rfl⟩
  obtain ⟨r, hr, hid, hseat, hguest, hnote⟩ :=
    hstray.of_edited (logOut_edited h.toFiled ha) (.ite (.unseat conn) .id)
  have hmem : c ∈ r.players := by
    split at hseat
    · exact (Room.mem_players_unseat.mp hseat).1
    · exact hseat
  have hbefore := (h.withoutAccount conn).stray_closeRoom (stray_of_unnoted hr hmem hguest hnote)
  refine ⟨r, ⟨hbefore.standing, hmem, hguest, fun hj => hbefore.unnoted ?_⟩, hid⟩
  rw [joined?, account?_withoutAccount, if_neg hc]
  exact hj

/-- **Strays.** A seat is astray after a call only if it was so before, or by a slip of whoever has
the seat. -/
theorem stray_apply {call : Call} (hrelists : call.Relists) (hstray : (call.apply reg).Stray c r') :
    (∃ r, reg.Stray c r ∧ r.id = r'.id) ∨ call.Slips reg ∧ call.conn = c := by
  cases call with
  | logIn => exact .inl ⟨r', stray_logIn hstray, rfl⟩
  | logOut => exact .inl (h.stray_logOut hstray)
  | setSubscription conn t on =>
    obtain ⟨r, hr, hid, hseat, hguest, hnote⟩ :=
      hstray.of_edited (setSubscription_edited reg conn t on) .id
    refine .inl ⟨r, stray_of_unnoted hr hseat hguest fun a ha hj => hnote a ha ?_, hid⟩
    split <;> exact hj
  | openRoom => exact .inl ⟨r', stray_openRoom hstray, rfl⟩
  | closeRoom => exact .inl ⟨r', h.stray_closeRoom hstray, rfl⟩
  | updateRoom conn edit =>
    obtain ⟨relisting, rfl⟩ := hrelists
    obtain ⟨r, hr, hid, hseat, hguest, hnote⟩ :=
      hstray.of_edited (h.updateRoom_edited conn _) (.ite (.relist relisting) .id)
    refine .inl ⟨r, stray_of_unnoted hr ?_ hguest hnote, hid⟩
    split at hseat <;> exact hseat
  | takeSeat => exact h.stray_takeSeat hstray
  | changeSeat => exact h.stray_changeSeat hstray
  | leaveSeat => exact .inl (h.stray_leaveSeat hstray)

end WellFormed

/-- Where no call slips, no seat goes astray. -/
theorem not_stray (h : ReachedBy (fun reg call => ¬ call.Slips reg) reg) (c : ConnectionId)
    (r : Room) : ¬ reg.Stray c r := by
  induction h generalizing r with
  | empty => exact fun hstray => nomatch hstray.standing
  | call call hreached _ hrelists hslip ih =>
    intro hstray
    rcases hreached.wellFormed.stray_apply hrelists hstray with ⟨s, hs, -⟩ | ⟨hslips, -⟩
    · exact ih s hs
    · exact hslip hslips

theorem Call.Permitted.not_slips {call : Call} (h : call.Permitted reg) : ¬ call.Slips reg := by
  cases call with
  | takeSeat => exact h.elim
  | changeSeat =>
    obtain ⟨a, ha⟩ := h
    exact fun hnone => nomatch hnone.symm.trans ha
  | logIn | logOut | setSubscription | openRoom | closeRoom | updateRoom | leaveSeat => exact id

theorem Call.Permitted.relists {call : Call} (h : call.Permitted reg) : call.Relists := by
  cases call with
  | updateRoom => exact h
  | _ => trivial

theorem ReachedBy.mono {allowed allowed' : Registry → Call → Prop}
    (hsub : ∀ {reg call}, allowed reg call → allowed' reg call) (h : ReachedBy allowed reg) :
    ReachedBy allowed' reg := by
  induction h with
  | empty => exact .empty
  | call call _ hn hrelists hc ih => exact ih.call call hn hrelists (hsub hc)

/-! ## What a logout leaves -/

/-- **Logouts and seats.** In a registry that calls by anybody lead to, a logout leaves exactly the
stray seats of the connection, in rooms that stay as they were: its seats in rooms of others that
its account does not note. So it leaves none if there is none astray; and where calls do not slip,
as those of sessions never do, there is none. -/
theorem logOut_leaves_strays (h : ReachedBy (fun _ _ => True) reg) {a : Account}
    (ha : reg.account? conn = some a) :
    (∀ r, r ∈ (reg.logOut conn).2.rooms.values ∧ conn ∈ r.players ↔
      r ∈ reg.rooms.values ∧ conn ∈ r.players ∧ r.owner ≠ conn ∧ a.joinedRoom ≠ some r.id) ∧
    ((∀ r ∈ (reg.logOut conn).2.rooms.values, conn ∉ r.players) ↔
      ∀ r ∈ reg.rooms.values, conn ∈ r.players → r.owner = conn ∨ a.joinedRoom = some r.id) ∧
    (ReachedBy (fun reg call => ¬ call.Slips reg) reg ∨ ReachedBy Call.Permitted reg →
      ∀ r ∈ (reg.logOut conn).2.rooms.values, conn ∉ r.players) := by
  have hwf := h.wellFormed
  have hstray : ∀ r, r ∈ (reg.logOut conn).2.rooms.values ∧ conn ∈ r.players ↔ reg.Stray conn r :=
    fun r => hwf.mem_players_logOut_iff ha
  have hleft : ∀ r, r ∈ (reg.logOut conn).2.rooms.values ∧ conn ∈ r.players ↔
      r ∈ reg.rooms.values ∧ conn ∈ r.players ∧ r.owner ≠ conn ∧ a.joinedRoom ≠ some r.id := by
    intro r
    rw [hstray, ← joined?_eq ha]
    constructor
    · exact fun hs => ⟨hs.standing, hs.seated, hs.guest, hs.unnoted⟩
    · rintro ⟨hr, hseat, hguest, hnote⟩
      exact ⟨hr, hseat, hguest, hnote⟩
  refine ⟨hleft, ⟨fun hnone r hr hseat => ?_, fun hall r hr hseat => ?_⟩, fun hcalls r hr hseat => ?_⟩
  · by_cases howner : r.owner = conn
    · exact .inl howner
    · refine .inr (Decidable.byContradiction fun hnote => ?_)
      obtain ⟨hafter, hstill⟩ := (hleft r).mpr ⟨hr, hseat, howner, hnote⟩
      exact hnone r hafter hstill
  · obtain ⟨hbefore, -, hguest, hnote⟩ := (hleft r).mp ⟨hr, hseat⟩
    exact (hall r hbefore hseat).elim hguest hnote
  · have hslips := hcalls.elim (·) (ReachedBy.mono Call.Permitted.not_slips)
    exact not_stray hslips conn r ((hstray r).mp ⟨hr, hseat⟩)

/-- A guest takes a seat in a room and then one in another. -/
def hopper : List Call :=
  [.openRoom ⟨1⟩ ⟨9⟩ plainSettings, .openRoom ⟨2⟩ ⟨9⟩ plainSettings, .logIn ⟨3⟩ [0x41] ⟨3⟩,
    .takeSeat ⟨1⟩ ⟨3⟩, .takeSeat ⟨2⟩ ⟨3⟩]

theorem reached_hopper : ReachedBy (fun _ _ => True) (Call.run hopper) :=
  (((((ReachedBy.empty.call (.openRoom ⟨1⟩ ⟨9⟩ plainSettings) (by decide) trivial trivial).call
    (.openRoom ⟨2⟩ ⟨9⟩ plainSettings) (by decide) trivial trivial).call
    (.logIn ⟨3⟩ [0x41] ⟨3⟩) (by decide) trivial trivial).call
    (.takeSeat ⟨1⟩ ⟨3⟩) (by decide) trivial trivial).call
    (.takeSeat ⟨2⟩ ⟨3⟩) (by decide) trivial trivial)

/-- The seat in the first room, which is not noted, outlives the account; the one in the second room
goes with it. -/
theorem logOut_leaves_strays_hopper :
    ReachedBy (fun _ _ => True) (Call.run hopper) ∧
      ∃ a first second, (Call.run hopper).account? ⟨3⟩ = some a ∧
        (Call.run hopper).room? ⟨1⟩ = some first ∧ first.players = [⟨1⟩, ⟨3⟩] ∧
        first ∈ ((Call.run hopper).logOut ⟨3⟩).2.rooms.values ∧
        (Call.run hopper).room? ⟨2⟩ = some second ∧ second.players = [⟨2⟩, ⟨3⟩] ∧
        second ∉ ((Call.run hopper).logOut ⟨3⟩).2.rooms.values := by
  have ha : (Call.run hopper).account? ⟨3⟩ = some ⟨⟨3⟩, ⟨1⟩, [0x41], .none, some ⟨2⟩, ⟨3⟩⟩ := rfl
  obtain ⟨hleft, -⟩ := logOut_leaves_strays reached_hopper ha
  refine ⟨reached_hopper, _, _, _, rfl, rfl, rfl, ?_, rfl, rfl, fun hmem => ?_⟩
  · exact ((hleft _).mpr ⟨.head _, by decide, by decide, by decide⟩).1
  · obtain ⟨-, -, -, hnote⟩ := (hleft _).mp ⟨hmem, by decide⟩
    exact absurd rfl hnote

/-- Logouts do not give up every seat. -/
theorem seat_outlives_account :
    ¬ ∀ (reg : Registry) (conn : ConnectionId) (a : Account),
      ReachedBy (fun _ _ => True) reg → reg.account? conn = some a →
      ∀ r ∈ (reg.logOut conn).2.rooms.values, conn ∉ r.players := fun hall =>
  absurd (hall (Call.run hopper) ⟨3⟩ _ reached_hopper rfl _ (.head _)) (by decide)

end GameLobby.Registry
