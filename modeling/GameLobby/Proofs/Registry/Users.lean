import GameLobby.Proofs.Registry.Footprint

/-!
# Users and their numbers

A login gives the user the next number, a logout takes the user away, and no other call does
anything to users (`users_apply`). So two users never have the same number, and a number that is
free again is not given a second time, as long as there are numbers left (`Numbered.apply`).
-/

namespace GameLobby

/-- A user comes or goes. -/
inductive Presence where
  | came
  | went
  deriving DecidableEq, Repr

namespace Registry

/-! ## Who is there -/

/-- The number of the user of a connection. -/
def uid? (reg : Registry) (c : ConnectionId) : Option UserId :=
  (reg.account? c).map (·.uid)

/-- The user with a number is logged in. -/
def Live (reg : Registry) (u : UserId) : Prop :=
  ∃ a ∈ reg.accounts.values, a.uid = u

instance (reg : Registry) (u : UserId) : Decidable (reg.Live u) :=
  inferInstanceAs (Decidable (∃ a ∈ reg.accounts.values, a.uid = u))

/-- What becomes of a user from one registry to the other. -/
def change? (reg reg' : Registry) (u : UserId) : Option Presence :=
  if reg.Live u then if reg'.Live u then none else some .went
  else if reg'.Live u then some .came else none

variable {reg reg' reg'' : Registry}

theorem live_iff {u : UserId} : reg.Live u ↔ ∃ c, reg.uid? c = some u := by
  constructor
  · rintro ⟨a, ha, rfl⟩
    obtain ⟨c, hc⟩ := Table.mem_values_iff.mp ha
    exact ⟨c, congrArg (Option.map _) hc⟩
  · rintro ⟨c, hc⟩
    obtain ⟨a, ha, rfl⟩ := Option.map_eq_some_iff.mp hc
    exact ⟨a, Table.mem_values_iff.mpr ⟨c, ha⟩, rfl⟩

theorem change?_eq_came_iff {u : UserId} :
    reg.change? reg' u = some .came ↔ ¬ reg.Live u ∧ reg'.Live u := by
  unfold change?
  by_cases h : reg.Live u <;> by_cases h' : reg'.Live u <;> simp [h, h']

theorem change?_eq_went_iff {u : UserId} :
    reg.change? reg' u = some .went ↔ reg.Live u ∧ ¬ reg'.Live u := by
  unfold change?
  by_cases h : reg.Live u <;> by_cases h' : reg'.Live u <;> simp [h, h']

theorem change?_eq_none_iff {u : UserId} :
    reg.change? reg' u = none ↔ (reg'.Live u ↔ reg.Live u) := by
  unfold change?
  by_cases h : reg.Live u <;> by_cases h' : reg'.Live u <;> simp [h, h']

/-- Nobody has come and nobody has gone. -/
structure SameUsers (reg reg' : Registry) : Prop where
  lastUid_eq : reg'.lastUid = reg.lastUid
  uid?_eq : ∀ c, reg'.uid? c = reg.uid? c

namespace SameUsers

theorem refl (reg : Registry) : reg.SameUsers reg :=
  ⟨rfl, fun _ => rfl⟩

theorem trans (h : reg.SameUsers reg') (h' : reg'.SameUsers reg'') : reg.SameUsers reg'' :=
  ⟨h'.lastUid_eq.trans h.lastUid_eq, fun c => (h'.uid?_eq c).trans (h.uid?_eq c)⟩

theorem live_iff (h : reg.SameUsers reg') {u : UserId} : reg'.Live u ↔ reg.Live u := by
  rw [Registry.live_iff, Registry.live_iff]
  simp only [h.uid?_eq]

theorem change?_eq (h : reg.SameUsers reg') (u : UserId) : reg.change? reg' u = none :=
  change?_eq_none_iff.mpr h.live_iff

end SameUsers

theorem SameAccounts.sameUsers (h : reg.SameAccounts reg') : reg.SameUsers reg' where
  lastUid_eq := h.lastUid_eq
  uid?_eq c := by
    obtain ⟨j, hj⟩ := h.account?_eq c
    rw [uid?, hj, Option.map_map]
    rfl

/-! ## What calls do to users -/

theorem sameUsers_setSubscription (reg : Registry) (conn : ConnectionId) (t : Topic) (on : Bool) :
    reg.SameUsers (reg.setSubscription conn t on).2 := by
  have he := setSubscription_edited reg conn t on
  refine ⟨he.lastUid_eq, fun c => ?_⟩
  rw [uid?, he.account?_eq, Option.map_map]
  refine Option.map_congr fun a _ => ?_
  dsimp only [Function.comp]
  split <;> rfl

/-- A call that is neither a login nor a logout. -/
def Call.SparesUsers : Call → Prop
  | .logIn .. | .logOut _ => False
  | _ => True

theorem Call.SparesUsers.sameUsers {call : Call} (h : call.SparesUsers) (reg : Registry) :
    reg.SameUsers (call.apply reg) := by
  cases call with
  | logIn | logOut => exact h.elim
  | setSubscription conn t on => exact sameUsers_setSubscription ..
  | openRoom conn ownerUid settings => exact (SameAccounts.openRoom ..).sameUsers
  | closeRoom conn => exact (SameAccounts.closeRoom ..).sameUsers
  | updateRoom conn edit => exact (SameAccounts.updateRoom ..).sameUsers
  | takeSeat id conn => exact (SameAccounts.takeSeat ..).sameUsers
  | changeSeat id conn => exact (SameAccounts.changeSeat ..).sameUsers
  | leaveSeat id conn => exact (SameAccounts.leaveSeat ..).sameUsers

theorem uid?_logIn {conn : ConnectionId} (hnone : reg.account? conn = none) (name : RawText)
    (outbox c : ConnectionId) :
    (reg.logIn conn name outbox).2.uid? c =
      if c = conn then some ⟨reg.lastUid + 1⟩ else reg.uid? c := by
  unfold uid?
  rw [account?_logIn_of_none hnone]
  split <;> rfl

theorem uid?_logOut (reg : Registry) (conn c : ConnectionId) :
    (reg.logOut conn).2.uid? c = if c = conn then none else reg.uid? c := by
  rw [(SameAccounts.logOut reg conn).sameUsers.uid?_eq, uid?, account?_withoutAccount]
  split <;> rfl

/-- A call gives the next number to a user who comes, or else nobody comes. -/
theorem users_apply (reg : Registry) (call : Call) :
    ((call.apply reg).lastUid = reg.lastUid ∧
      ∀ c u, (call.apply reg).uid? c = some u → reg.uid? c = some u) ∨
    ∃ conn, reg.account? conn = none ∧ (call.apply reg).lastUid = reg.lastUid + 1 ∧
      ∀ c, (call.apply reg).uid? c =
        if c = conn then some ⟨reg.lastUid + 1⟩ else reg.uid? c := by
  have hspared : call.SparesUsers → (call.apply reg).lastUid = reg.lastUid ∧
      ∀ c u, (call.apply reg).uid? c = some u → reg.uid? c = some u := fun hcall =>
    ⟨(hcall.sameUsers reg).lastUid_eq, fun c u hu => (hcall.sameUsers reg).uid?_eq c ▸ hu⟩
  cases call with
  | logIn conn name outbox =>
    rcases logIn_cases reg conn name outbox with ⟨e, heq⟩ | ⟨hnone, heq⟩
    · have hsame : (Call.logIn conn name outbox).apply reg = reg := congrArg Prod.snd heq
      rw [hsame]
      exact .inl ⟨rfl, fun _ _ hu => hu⟩
    · have hnext : ((Call.logIn conn name outbox).apply reg).lastUid = reg.lastUid + 1 :=
        congrArg (·.2.lastUid) heq
      exact .inr ⟨conn, hnone, hnext, uid?_logIn hnone name outbox⟩
  | logOut conn =>
    refine .inl ⟨(SameAccounts.logOut reg conn).lastUid_eq, fun c u hu => ?_⟩
    have hout : (reg.logOut conn).2.uid? c = some u := hu
    rw [uid?_logOut] at hout
    split at hout
    · cases hout
    · exact hout
  | setSubscription | openRoom | closeRoom | updateRoom | takeSeat | changeSeat | leaveSeat =>
    exact .inl (hspared trivial)

/-! ## Numbers -/

/-- Fewer than 2^32 - 1 users have a number. -/
def UidsLeft (reg : Registry) : Prop :=
  reg.lastUid.toNat < UInt32.size - 1

instance (reg : Registry) : Decidable reg.UidsLeft :=
  inferInstanceAs (Decidable (_ < _))

theorem UidsLeft.lastUid_lt (hl : reg.UidsLeft) : reg.lastUid < reg.lastUid + 1 :=
  UInt32.lt_iff_toNat_lt.mpr (toNat_next hl ▸ Nat.lt_succ_self _)

/-- Users have numbers that were given out, and no two of them have the same. -/
structure Numbered (reg : Registry) : Prop where
  uid_le : ∀ {c u}, reg.uid? c = some u → u.number ≤ reg.lastUid
  uid_inj : ∀ {c d u}, reg.uid? c = some u → reg.uid? d = some u → c = d

theorem numbered_empty : empty.Numbered :=
  ⟨nofun, nofun⟩

/-- Whoever is there in `reg'` was there in `reg`, or has a number that was given out since. -/
structure Precedes (reg reg' : Registry) : Prop where
  lastUid_le : reg.lastUid ≤ reg'.lastUid
  live_or_new : ∀ {u}, reg'.Live u → reg.Live u ∨ reg.lastUid < u.number

theorem Numbered.le_of_live (h : reg.Numbered) {u : UserId} (hu : reg.Live u) :
    u.number ≤ reg.lastUid := by
  obtain ⟨c, hc⟩ := live_iff.mp hu
  exact h.uid_le hc

/-- Nobody has the next number. -/
theorem Numbered.not_live_next (h : reg.Numbered) (hl : reg.UidsLeft) :
    ¬ reg.Live ⟨reg.lastUid + 1⟩ := fun hu =>
  UInt32.lt_irrefl _ (UInt32.lt_of_le_of_lt (h.le_of_live hu) hl.lastUid_lt)

/-- **Numbers.** Every call keeps the numbers of users apart and gives none of them anew. -/
theorem Numbered.apply (h : reg.Numbered) (hl : reg.UidsLeft) (call : Call) :
    (call.apply reg).Numbered ∧ reg.Precedes (call.apply reg) := by
  have hlt := hl.lastUid_lt
  rcases reg.users_apply call with ⟨hlast, hkept⟩ | ⟨conn, -, hlast, hcome⟩
  · refine ⟨⟨fun hu => hlast ▸ h.uid_le (hkept _ _ hu), fun hu hu' =>
      h.uid_inj (hkept _ _ hu) (hkept _ _ hu')⟩, hlast ▸ UInt32.le_refl _, fun hu => ?_⟩
    obtain ⟨c, hc⟩ := live_iff.mp hu
    exact .inl (live_iff.mpr ⟨c, hkept c _ hc⟩)
  · have hold : ∀ {c u}, reg.uid? c = some u → u ≠ ⟨reg.lastUid + 1⟩ := by
      rintro c _ hu rfl
      exact h.not_live_next hl (live_iff.mpr ⟨c, hu⟩)
    refine ⟨⟨fun {c u} hu => ?_, fun {c d u} hu hu' => ?_⟩, hlast ▸ UInt32.le_of_lt hlt,
      fun {u} hu => ?_⟩
    · rw [hlast]
      rw [hcome] at hu
      split at hu
      · cases hu
        exact UInt32.le_refl _
      · exact UInt32.le_trans (h.uid_le hu) (UInt32.le_of_lt hlt)
    · rw [hcome] at hu hu'
      split at hu <;> split at hu'
      · rename_i hc hd
        rw [hc, hd]
      · cases hu
        exact absurd rfl (hold hu')
      · cases hu'
        exact absurd rfl (hold hu)
      · exact h.uid_inj hu hu'
    · obtain ⟨c, hc⟩ := live_iff.mp hu
      rw [hcome] at hc
      split at hc
      · cases hc
        exact .inr hlt
      · exact .inl (live_iff.mpr ⟨c, hc⟩)

/-- Users have numbers of their own, and get their news at their own outboxes. -/
structure Attended (reg : Registry) : Prop extends reg.Numbered where
  housed : reg.Housed

theorem attended_empty : empty.Attended :=
  ⟨numbered_empty, nofun⟩

theorem SameUsers.numbered (h : reg.SameUsers reg') (hnum : reg.Numbered) : reg'.Numbered where
  uid_le hu := h.lastUid_eq ▸ hnum.uid_le (h.uid?_eq _ ▸ hu)
  uid_inj hu hu' := hnum.uid_inj (h.uid?_eq _ ▸ hu) (h.uid?_eq _ ▸ hu')

theorem SameUsers.precedes (h : reg.SameUsers reg') : reg.Precedes reg' where
  lastUid_le := h.lastUid_eq ▸ UInt32.le_refl _
  live_or_new hu := .inl (h.live_iff.mp hu)

theorem Attended.apply (h : reg.Attended) (hl : reg.UidsLeft) {call : Call}
    (hcall : call.Housed) :
    (call.apply reg).Attended ∧ reg.Precedes (call.apply reg) := by
  obtain ⟨hnum, hprecedes⟩ := h.toNumbered.apply hl call
  exact ⟨⟨hnum, h.housed.apply hcall⟩, hprecedes⟩

/-! ## Who comes and who goes -/

/-- With a login a user comes, under the next number. -/
theorem Numbered.change?_logIn (h : reg.Numbered) (hl : reg.UidsLeft) {conn : ConnectionId}
    (hnone : reg.account? conn = none) (name : RawText) (outbox : ConnectionId) (u : UserId) :
    reg.change? (reg.logIn conn name outbox).2 u =
      if ⟨reg.lastUid + 1⟩ = u then some .came else none := by
  have hcome := uid?_logIn hnone name outbox
  split
  · rename_i hu
    subst hu
    exact change?_eq_came_iff.mpr
      ⟨h.not_live_next hl, live_iff.mpr ⟨conn, (hcome conn).trans (if_pos rfl)⟩⟩
  · rename_i hu
    rw [change?_eq_none_iff, live_iff, live_iff]
    have hnouser : reg.uid? conn = none := congrArg (Option.map _) hnone
    refine exists_congr fun c => ?_
    rw [hcome]
    split
    · rename_i hc
      rw [hc, hnouser]
      exact iff_of_false (fun heq => hu (Option.some.inj heq)) nofun
    · exact Iff.rfl

/-- With a logout the user goes. -/
theorem Numbered.change?_logOut (h : reg.Numbered) {conn : ConnectionId} {a : Account}
    (ha : reg.account? conn = some a) (u : UserId) :
    reg.change? (reg.logOut conn).2 u = if a.uid = u then some .went else none := by
  have hout := uid?_logOut reg conn
  have huid : reg.uid? conn = some a.uid := congrArg (Option.map _) ha
  split
  · rename_i hu
    subst hu
    rw [change?_eq_went_iff, live_iff, live_iff]
    refine ⟨⟨conn, huid⟩, ?_⟩
    rintro ⟨c, hc⟩
    rw [hout] at hc
    split at hc
    · cases hc
    · rename_i hne
      exact hne (h.uid_inj hc huid)
  · rename_i hu
    rw [change?_eq_none_iff, live_iff, live_iff]
    refine exists_congr fun c => ?_
    rw [hout]
    split
    · rename_i hc
      rw [hc, huid]
      exact iff_of_false nofun fun heq => hu (Option.some.inj heq)
    · exact Iff.rfl

/-- No number comes twice in a list of users. -/
theorem Numbered.nodup_map_uid (h : reg.Numbered) :
    (reg.accounts.values.map (·.uid)).Nodup :=
  Table.nodup_map_values fun ha ha' heq =>
    h.uid_inj (congrArg (Option.map _) ha)
      ((congrArg (Option.map _) ha').trans (congrArg some heq.symm))

end Registry

end GameLobby
