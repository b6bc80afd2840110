import GameLobby.Proofs.Registry.Strays
import GameLobby.Proofs.Registry.Users

/-!
# Seats and joined rooms

A seat is recorded twice: in the player list of the room and, for a guest, in the joined room of the
account. `Registry.Coherent` says that the two records agree and that the owner of a room is logged
in. The calls that sessions make keep it (`Coherent.apply`): a session offers and enters rooms only
while it is logged in, and offers rooms under its own user number. No seat goes astray by such calls
(`Call.Permitted.not_slips`), so guests have noted their rooms; and owners stay logged in
(`Coherent.uid?_apply`).

Main statement: `players_iff_owner_or_joined`.
-/

namespace GameLobby.Registry

/-- A well-formed registry in which guests have noted their rooms and owners are logged in. -/
structure Coherent (reg : Registry) : Prop extends WellFormed reg where
  guest_joined : ∀ {o r c}, reg.roomOf? o = some r → c ∈ r.players → c ≠ o →
    ∃ a, reg.account? c = some a ∧ a.joinedRoom = some r.id
  owner_account : ∀ {o r}, reg.roomOf? o = some r →
    ∃ a, reg.account? o = some a ∧ a.uid = r.ownerUid

theorem coherent_empty : empty.Coherent where
  toWellFormed := wellFormed_empty
  guest_joined h := nomatch h
  owner_account h := nomatch h

namespace Coherent

variable {reg : Registry}

/-- Guests have noted their rooms, so no seat is astray. -/
theorem not_stray (h : reg.Coherent) (c : ConnectionId) (r : Room) : ¬ reg.Stray c r := by
  intro hstray
  obtain ⟨o, ho⟩ := (mem_rooms_iff reg).mp hstray.standing
  have hne : c ≠ o := fun hco => hstray.guest ((h.owner_eq ho).trans hco.symm)
  obtain ⟨a, ha, hj⟩ := h.guest_joined ho hstray.seated hne
  exact hstray.unnoted ((joined?_eq ha).trans hj)

/-- The account of a guest is the one that notes the room. -/
theorem joined_of_guest (h : reg.Coherent) {o c : ConnectionId} {r : Room} {a : Account}
    (hr : reg.roomOf? o = some r) (hc : c ∈ r.players) (hne : c ≠ o)
    (ha : reg.account? c = some a) : a.joinedRoom = some r.id := by
  obtain ⟨b, hb, hj⟩ := h.guest_joined hr hc hne
  rw [ha, Option.some.injEq] at hb
  exact hb ▸ hj

/-- Owners stay logged in as long as their rooms stand. -/
theorem uid?_apply (h : reg.Coherent) {call : Call} (hc : call.Permitted reg) {o : ConnectionId}
    {r' : Room} (hr' : (call.apply reg).roomOf? o = some r') :
    (call.apply reg).uid? o = some r'.ownerUid := by
  rcases roomOf?_apply_cases hr' with
    ⟨r, hr, hchange⟩ | ⟨-, uid, settings, rfl, rfl⟩
  · obtain ⟨a, ha, huid⟩ := h.owner_account hr
    have hbefore : reg.uid? o = some r'.ownerUid := by
      rw [uid?, ha, hchange.ownerUid_eq fun _ => hc.relists, ← huid]
      rfl
    have hspared : call.SparesUsers → (call.apply reg).uid? o = some r'.ownerUid :=
      fun hcall => ((hcall.sameUsers reg).uid?_eq o).trans hbefore
    cases call with
    | logIn conn name outbox =>
      rcases logIn_cases reg conn name outbox with ⟨e, heq⟩ | ⟨hnone, -⟩
      · exact (congrArg (uid? ·.2 o) heq).trans hbefore
      · have hne : o ≠ conn := by
          rintro rfl
          cases hnone.symm.trans ha
        exact (uid?_logIn hnone name outbox o).trans ((if_neg hne).trans hbefore)
    | logOut conn =>
      have hne : o ≠ conn := by
        rintro rfl
        cases ((roomOf?_logOut h.toFiled ha o).trans (if_pos rfl)).symm.trans hr'
      exact (uid?_logOut reg conn o).trans ((if_neg hne).trans hbefore)
    | setSubscription | openRoom | closeRoom | updateRoom | takeSeat | changeSeat | leaveSeat =>
      exact hspared trivial
  · obtain ⟨a, ha, rfl⟩ := hc
    have hsame := ((SameAccounts.openRoom reg o a.uid settings).sameUsers).uid?_eq o
    exact hsame.trans (congrArg (Option.map _) ha)

/-- A call that sessions make keeps the two records of a seat in agreement, if it keeps the registry
well-formed. -/
theorem of_wellFormed (h : reg.Coherent) {call : Call} (hc : call.Permitted reg)
    (hwf : (call.apply reg).WellFormed) : (call.apply reg).Coherent where
  toWellFormed := hwf
  guest_joined {o r c} hr hmem hne := by
    have hj : (call.apply reg).joined? c = some r.id := Decidable.byContradiction fun hj => by
      have hstray : (call.apply reg).Stray c r :=
        ⟨(mem_rooms_iff _).mpr ⟨o, hr⟩, hmem, fun ho => hne (ho.symm.trans (hwf.owner_eq hr)), hj⟩
      rcases h.toWellFormed.stray_apply hc.relists hstray with ⟨s, hs, -⟩ | ⟨hslips, -⟩
      · exact h.not_stray c s hs
      · exact hc.not_slips hslips
    exact Option.bind_eq_some_iff.mp hj
  owner_account hr := Option.map_eq_some_iff.mp (h.uid?_apply hc hr)

theorem closeRoom (h : reg.Coherent) (conn : ConnectionId) : (reg.closeRoom conn).2.Coherent :=
  h.of_wellFormed (show Call.Permitted reg (.closeRoom conn) from trivial)
    (h.toWellFormed.closeRoom conn)

theorem leaveSeat (h : reg.Coherent) (id : RoomId) (conn : ConnectionId) :
    (reg.leaveSeat id conn).2.Coherent :=
  h.of_wellFormed (show Call.Permitted reg (.leaveSeat id conn) from trivial)
    (h.toWellFormed.leaveSeat id conn)

/-- **Preservation.** The calls that sessions make keep the two records of a seat in agreement. -/
theorem apply (h : reg.Coherent) (hn : reg.NumbersLeft) {call : Call} (hc : call.Permitted reg) :
    (call.apply reg).Coherent :=
  h.of_wellFormed hc (h.toWellFormed.apply hn hc.relists)

/-- Exactly the owner and those who have joined a room have a seat in it. -/
theorem mem_players_iff (h : reg.Coherent) {r : Room} (hr : r ∈ reg.rooms.values)
    (c : ConnectionId) :
    c ∈ r.players ↔ c = r.owner ∨ ∃ a, reg.account? c = some a ∧ a.joinedRoom = some r.id := by
  obtain ⟨o, ho⟩ := (mem_rooms_iff reg).mp hr
  have howner := h.owner_eq ho
  constructor
  · intro hc
    by_cases hco : c = o
    · exact .inl (hco.trans howner.symm)
    · exact .inr (h.guest_joined ho hc hco)
  · rintro (rfl | ⟨a, ha, hj⟩)
    · exact howner ▸ h.owner_mem_players ho
    · obtain ⟨s, hs, hc, _⟩ := h.joined_seat ha hj
      rw [h.room?_of_roomOf? ho, Option.some.injEq] at hs
      exact hs ▸ hc

end Coherent

theorem ReachedBy.coherent {reg : Registry} (h : ReachedBy Call.Permitted reg) : reg.Coherent := by
  induction h with
  | empty => exact coherent_empty
  | call call _ hn _ hc ih => exact ih.apply hn hc

/-! ## Reached registries -/

/-- **Seats.** In a registry that sessions can bring about, in any order of their calls, those who
have a seat in a room are its owner and the accounts that have joined it. Nobody joins the own room,
owners are logged in under the number that their room shows, and so nobody is a guest in two
rooms. -/
theorem players_iff_owner_or_joined {reg : Registry} (h : ReachedBy Call.Permitted reg) :
    (∀ r ∈ reg.rooms.values, ∀ c,
      c ∈ r.players ↔ c = r.owner ∨ ∃ a, reg.account? c = some a ∧ a.joinedRoom = some r.id) ∧
    (∀ c a r, reg.account? c = some a → reg.roomOf? c = some r → a.joinedRoom ≠ some r.id) ∧
    (∀ r ∈ reg.rooms.values, ∃ a, reg.account? r.owner = some a ∧ a.uid = r.ownerUid) ∧
    ∀ r ∈ reg.rooms.values, ∀ s ∈ reg.rooms.values, ∀ c,
      c ∈ r.players → c ∈ s.players → c ≠ r.owner → c ≠ s.owner → r = s := by
  have hco := h.coherent
  refine ⟨fun r hr c => hco.mem_players_iff hr c, fun c a r ha hr hj => ?_, fun r hr => ?_,
    fun r hr s hs c hcr hcs hor hos => ?_⟩
  · obtain ⟨s, hs, _, hne⟩ := hco.joined_seat ha hj
    rw [hco.room?_of_roomOf? hr, Option.some.injEq] at hs
    exact hne (hs ▸ hco.owner_eq hr)
  · obtain ⟨o, ho⟩ := (mem_rooms_iff reg).mp hr
    exact hco.owner_eq ho ▸ hco.owner_account ho
  · obtain ⟨o, ho⟩ := (mem_rooms_iff reg).mp hr
    obtain ⟨o', ho'⟩ := (mem_rooms_iff reg).mp hs
    obtain ⟨a, ha, hj⟩ := ((hco.mem_players_iff hr c).mp hcr).resolve_left hor
    obtain ⟨b, hb, hj'⟩ := ((hco.mem_players_iff hs c).mp hcs).resolve_left hos
    rw [ha, Option.some.injEq] at hb
    subst hb
    exact hco.room_eq_of_id_eq ho ho' (Option.some.inj (hj.symm.trans hj'))

/-- Two users log in and offer rooms, and the second visits the first. -/
def visit : List Call :=
  [.logIn ⟨1⟩ [0x41] ⟨1⟩, .logIn ⟨2⟩ [0x42] ⟨2⟩, .openRoom ⟨1⟩ ⟨1⟩ plainSettings,
    .openRoom ⟨2⟩ ⟨2⟩ plainSettings, .changeSeat ⟨1⟩ ⟨2⟩]

/-- The visitor sits with its host and is not noted as a guest of its own room. -/
theorem visit_seats :
    ReachedBy Call.Permitted (visit.foldl Call.apply .empty) ∧
      (visit.foldl Call.apply .empty).rooms.size = 2 ∧
      ∀ c a r, (visit.foldl Call.apply .empty).account? c = some a →
        (visit.foldl Call.apply .empty).roomOf? c = some r → a.joinedRoom ≠ some r.id := by
  have h : ReachedBy Call.Permitted (visit.foldl Call.apply .empty) :=
    (((((ReachedBy.empty.call (.logIn ⟨1⟩ [0x41] ⟨1⟩) (by decide) trivial trivial).call
      (.logIn ⟨2⟩ [0x42] ⟨2⟩) (by decide) trivial trivial).call
      (.openRoom ⟨1⟩ ⟨1⟩ plainSettings) (by decide) trivial ⟨_, rfl, rfl⟩).call
      (.openRoom ⟨2⟩ ⟨2⟩ plainSettings) (by decide) trivial ⟨_, rfl, rfl⟩).call
      (.changeSeat ⟨1⟩ ⟨2⟩) (by decide) trivial ⟨_, rfl⟩)
  exact ⟨h, by decide, (players_iff_owner_or_joined h).2.1⟩

end GameLobby.Registry
