import GameLobby.Proofs.Registry.Preservation

/-!
# What a call touches

`Call.touched` are the numbers of the rooms that a call changes, brings in or takes away; every
other room is found as before (`WellFormed.room?_apply`). An account stays as it is as long as it is
there, but for the room that it has joined and what its user subscribes to
(`account?_apply_eq`). As sessions log their users in, the outbox is the one of the connection
(`Housed.apply`).
-/

namespace GameLobby.Registry

/-! ## Rooms -/

/-- The rooms that a call touches. -/
def Call.touched (reg : Registry) : Call → List RoomId
  | .logIn .. | .setSubscription .. => []
  | .logOut conn => ((reg.roomOf? conn).map (·.id)).toList ++ (reg.joined? conn).toList
  | .openRoom .. => [⟨reg.lastRoomId + 1⟩]
  | .closeRoom conn | .updateRoom conn _ => ((reg.roomOf? conn).map (·.id)).toList
  | .takeSeat id _ | .leaveSeat id _ => [id]
  | .changeSeat id conn => id :: (reg.joined? conn).toList

@[simp] theorem Call.touched_editRoom (reg : Registry) (conn : ConnectionId)
    (edit : Listing → Listing) :
    (editRoom conn edit).touched reg = ((reg.roomOf? conn).map (·.id)).toList :=
  rfl

/-- A room that no case of a change in place applies to. -/
theorem Edited.room?_of_eq {reg reg' : Registry} {f : ConnectionId → Account → Account}
    {g : Room → Room} (he : reg.Edited reg' f g) {id : RoomId}
    (hg : ∀ r, reg.room? id = some r → g r = r) : reg'.room? id = reg.room? id := by
  rw [he.room?_eq]
  cases hr : reg.room? id with
  | none => rfl
  | some r => exact congrArg some (hg r hr)

theorem WellFormed.room?_apply {reg : Registry} (h : reg.WellFormed) (call : Call) {id : RoomId}
    (hid : id ∉ call.touched reg) : (call.apply reg).room? id = reg.room? id := by
  cases call with
  | logIn conn name outbox =>
    show (reg.logIn conn name outbox).2.room? id = _
    rcases logIn_cases reg conn name outbox with ⟨e, heq⟩ | ⟨-, heq⟩
    · rw [heq]
    · rw [heq]
      rfl
  | logOut conn =>
    show (reg.logOut conn).2.room? id = _
    rcases logOut_cases reg conn with ⟨-, heq⟩ | ⟨a, ha, -⟩
    · rw [heq]
    have htouched : (reg.roomOf? conn).map (·.id) ≠ some id ∧ reg.joined? conn ≠ some id := by
      simpa [Call.touched, not_or] using hid
    have hclosed : ((reg.withoutAccount conn).closeRoom conn).2.room? id = reg.room? id := by
      rw [room?_closeRoom (withoutAccount_filed h.toFiled conn)]
      exact if_neg htouched.1
    rw [(logOut_edited h.toFiled ha).room?_of_eq, hclosed]
    intro r hr
    rw [hclosed] at hr
    rw [h.id_of_room? hr, if_neg]
    intro hj
    exact htouched.2 (by rw [joined?, ha]; exact hj)
  | setSubscription conn t on =>
    exact (setSubscription_edited reg conn t on).room?_of_eq fun _ _ => rfl
  | openRoom conn ownerUid settings =>
    have hne : id ≠ ⟨reg.lastRoomId + 1⟩ := by simpa [Call.touched] using hid
    show (reg.openRoom conn ownerUid settings).2.room? id = _
    rcases openRoom_cases reg conn ownerUid settings with ⟨e, heq⟩ | ⟨hnone, -⟩
    · rw [heq]
    · rw [h.room?_openRoom conn ownerUid settings hnone, if_neg hne]
  | closeRoom conn =>
    have hne : (reg.roomOf? conn).map (·.id) ≠ some id := by simpa [Call.touched] using hid
    exact (room?_closeRoom h.toFiled conn id).trans (if_neg hne)
  | updateRoom conn edit =>
    have hne : (reg.roomOf? conn).map (·.id) ≠ some id := by simpa [Call.touched] using hid
    refine (h.updateRoom_edited conn edit).room?_of_eq fun r hr => if_neg fun howner => hne ?_
    rw [← howner, h.roomOf?_owner hr, Option.map_some, h.id_of_room? hr]
  | takeSeat j conn =>
    have hne : id ≠ j := by simpa [Call.touched] using hid
    show (reg.takeSeat j conn).2.room? id = _
    rcases h.takeSeat_cases j conn with ⟨e, heq⟩ | ⟨room, -, -, -, he⟩
    · rw [heq]
    · exact he.room?_of_eq fun r hr => if_neg (h.id_of_room? hr ▸ hne)
  | changeSeat j conn =>
    have hne : id ≠ j ∧ reg.joined? conn ≠ some id := by
      simpa [Call.touched, not_or] using hid
    show (reg.changeSeat j conn).2.room? id = _
    rcases h.changeSeat_cases j conn with ⟨e, heq⟩ | ⟨room, -, -, -, he⟩
    · rw [heq]
    · refine he.room?_of_eq fun r hr => ?_
      rw [h.id_of_room? hr, if_neg hne.1, if_neg hne.2]
  | leaveSeat j conn =>
    have hne : id ≠ j := by simpa [Call.touched] using hid
    show (reg.leaveSeat j conn).2.room? id = _
    rcases h.leaveSeat_cases j conn with ⟨e, heq⟩ | ⟨room, -, -, -, -, he⟩
    · rw [heq]
    · exact he.room?_of_eq fun r hr => if_neg (h.id_of_room? hr ▸ hne)

/-! ## Accounts -/

/-- The accounts of `reg'` are those of `reg`, but for the rooms that they have joined. -/
structure SameAccounts (reg reg' : Registry) : Prop where
  lastUid_eq : reg'.lastUid = reg.lastUid
  account?_eq : ∀ c, ∃ j,
    reg'.account? c = (reg.account? c).map fun a => { a with joinedRoom := j }

namespace SameAccounts

variable {reg reg' reg'' : Registry}

theorem of_account?_eq (hlast : reg'.lastUid = reg.lastUid)
    (h : ∀ c, reg'.account? c = reg.account? c) : reg.SameAccounts reg' where
  lastUid_eq := hlast
  account?_eq c := by
    refine ⟨reg.joined? c, ?_⟩
    rw [h, joined?]
    cases reg.account? c <;> rfl

theorem refl (reg : Registry) : reg.SameAccounts reg :=
  of_account?_eq rfl fun _ => rfl

theorem trans (h : reg.SameAccounts reg') (h' : reg'.SameAccounts reg'') :
    reg.SameAccounts reg'' where
  lastUid_eq := h'.lastUid_eq.trans h.lastUid_eq
  account?_eq c := by
    obtain ⟨j, hj⟩ := h.account?_eq c
    obtain ⟨j', hj'⟩ := h'.account?_eq c
    exact ⟨j', by rw [hj', hj, Option.map_map]; rfl⟩

/-- What changes is the room that an account has joined. -/
theorem of_map {f : ConnectionId → Account → Account} (hlast : reg'.lastUid = reg.lastUid)
    (h : ∀ c, reg'.account? c = (reg.account? c).map (f c))
    (hf : ∀ c a, ∃ j, f c a = { a with joinedRoom := j }) : reg.SameAccounts reg' where
  lastUid_eq := hlast
  account?_eq c := by
    rw [h]
    cases reg.account? c with
    | none => exact ⟨none, rfl⟩
    | some a =>
      obtain ⟨j, hj⟩ := hf c a
      exact ⟨j, congrArg some hj⟩

variable (reg)

theorem modifyRoom (o : ConnectionId) (g : Room → Room) :
    reg.SameAccounts (reg.modifyRoom o g) :=
  of_account?_eq rfl fun _ => rfl

theorem modifyAccount (conn : ConnectionId) {f : Account → Account}
    (hf : ∀ a, ∃ j, f a = { a with joinedRoom := j }) :
    reg.SameAccounts (reg.modifyAccount conn f) := by
  refine of_map rfl (account?_modifyAccount reg conn · f) fun c a => ?_
  split
  · exact hf a
  · exact ⟨a.joinedRoom, rfl⟩

theorem modifyRoomAt (id : RoomId) (g : Room → Room) :
    reg.SameAccounts (reg.modifyRoomAt id g) :=
  of_account?_eq (lastUid_modifyRoomAt ..) (account?_modifyRoomAt reg id g)

theorem vacate (id : RoomId) (conn : ConnectionId) :
    reg.SameAccounts (reg.vacate id conn).2 := by
  unfold Registry.vacate
  split
  · exact refl reg
  · exact modifyRoomAt ..

theorem openRoom (conn : ConnectionId) (ownerUid : UserId) (settings : RoomSettings) :
    reg.SameAccounts (reg.openRoom conn ownerUid settings).2 := by
  rcases openRoom_cases reg conn ownerUid settings with ⟨e, heq⟩ | ⟨-, heq⟩
  · exact heq ▸ refl reg
  · exact heq ▸ of_account?_eq rfl fun _ => rfl

theorem closeRoom (conn : ConnectionId) : reg.SameAccounts (reg.closeRoom conn).2 := by
  refine of_map ?_ (account?_closeRoom reg conn) fun c a => ?_
  · rcases closeRoom_cases reg conn with ⟨-, heq⟩ | ⟨room, -, heq⟩ <;> rw [heq]
    rfl
  · unfold forget
    split
    · exact ⟨a.joinedRoom, rfl⟩
    · split
      · exact ⟨none, rfl⟩
      · exact ⟨a.joinedRoom, rfl⟩

theorem updateRoom (conn : ConnectionId) (edit : Room → Room) :
    reg.SameAccounts (reg.updateRoom conn edit).2 := by
  unfold Registry.updateRoom
  dsimp only
  split
  · exact refl reg
  · exact modifyRoom ..

theorem takeSeat (id : RoomId) (conn : ConnectionId) :
    reg.SameAccounts (reg.takeSeat id conn).2 := by
  unfold Registry.takeSeat
  cases reg.room? id with
  | none => exact refl reg
  | some room =>
    dsimp only
    split
    · exact refl reg
    · have hseat := modifyRoomAt reg id (·.seat conn)
      split
      · exact hseat
      · exact hseat.trans (modifyAccount _ conn fun _ => ⟨some id, rfl⟩)

theorem changeSeat (id : RoomId) (conn : ConnectionId) :
    reg.SameAccounts (reg.changeSeat id conn).2 := by
  unfold Registry.changeSeat
  cases reg.room? id with
  | none => exact refl reg
  | some room =>
    dsimp only
    split
    · exact refl reg
    · have hseat := modifyRoomAt reg id (·.seat conn)
      split
      · exact hseat.trans (modifyAccount _ conn fun _ => ⟨_, rfl⟩)
      · exact (hseat.trans (vacate ..)).trans (modifyAccount _ conn fun _ => ⟨_, rfl⟩)

theorem leaveSeat (id : RoomId) (conn : ConnectionId) :
    reg.SameAccounts (reg.leaveSeat id conn).2 := by
  unfold Registry.leaveSeat
  cases reg.room? id with
  | none => exact refl reg
  | some room =>
    dsimp only
    split
    · exact refl reg
    · split
      · refine (modifyRoomAt reg id (·.unseat conn)).trans (modifyAccount _ conn fun a => ?_)
        split
        · exact ⟨none, rfl⟩
        · exact ⟨a.joinedRoom, rfl⟩
      · exact refl reg

theorem logOut (conn : ConnectionId) :
    (reg.withoutAccount conn).SameAccounts (reg.logOut conn).2 := by
  rcases logOut_cases reg conn with ⟨hnone, heq⟩ | ⟨a, ha, -, heq⟩
  · refine of_account?_eq (congrArg (·.2.lastUid) heq) fun c => ?_
    rw [heq, account?_withoutAccount]
    split
    · rename_i hc
      rw [hc, hnone]
    · rfl
  · have hclosed := closeRoom (reg.withoutAccount conn) conn
    rw [heq]
    split
    · exact hclosed
    · exact hclosed.trans (vacate ..)

end SameAccounts

/-- The registry after what a call does to accounts, except to the rooms that they have joined. -/
def Call.onAccounts (reg : Registry) : Call → Registry
  | .logIn conn name outbox => (reg.logIn conn name outbox).2
  | .logOut conn => reg.withoutAccount conn
  | .setSubscription conn t on => (reg.setSubscription conn t on).2
  | .openRoom .. | .closeRoom _ | .updateRoom .. | .takeSeat .. | .changeSeat ..
  | .leaveSeat .. => reg

theorem Call.sameAccounts (call : Call) (reg : Registry) :
    (call.onAccounts reg).SameAccounts (call.apply reg) := by
  cases call with
  | logIn | setSubscription => exact .refl _
  | logOut conn => exact .logOut reg conn
  | openRoom conn ownerUid settings => exact .openRoom reg conn ownerUid settings
  | closeRoom conn => exact .closeRoom reg conn
  | updateRoom conn edit => exact .updateRoom reg conn edit
  | takeSeat id conn => exact .takeSeat reg id conn
  | changeSeat id conn => exact .changeSeat reg id conn
  | leaveSeat id conn => exact .leaveSeat reg id conn

/-- The subscriptions of the account of `c` after a call. -/
def Call.subscriptions (c : ConnectionId) (s : Subscriptions) : Call → Subscriptions
  | .setSubscription conn t on => if c = conn then s.set t on else s
  | _ => s

/-- A subscription stays that is not given up. -/
theorem Call.get_subscriptions {call : Call} {c : ConnectionId} {s : Subscriptions} {t : Topic}
    (hset : call ≠ .setSubscription c t false) (h : s.get t) : (call.subscriptions c s).get t := by
  cases call with
  | setSubscription conn u on =>
    unfold Call.subscriptions
    dsimp only
    split
    · rename_i hc
      by_cases ht : t = u
      · subst hc ht
        cases on with
        | true => exact Subscriptions.get_set_self s t true
        | false => exact absurd rfl hset
      · rw [Subscriptions.get_set_of_ne s on ht]
        exact h
    · exact h
  | _ => exact h

/-- An account that is there stays unless it logs out. All that changes is the room that it has
joined, and what its user subscribes to. -/
theorem account?_apply_eq {reg : Registry} (call : Call) {c : ConnectionId} {a : Account}
    (ha : reg.account? c = some a) (hstay : call ≠ .logOut c) :
    ∃ j, (call.apply reg).account? c =
      some { a with joinedRoom := j, subscriptions := call.subscriptions c a.subscriptions } := by
  have hon : (call.onAccounts reg).account? c =
      some { a with subscriptions := call.subscriptions c a.subscriptions } := by
    cases call with
    | logIn conn name outbox =>
      show (reg.logIn conn name outbox).2.account? c = some a
      rcases logIn_cases reg conn name outbox with ⟨e, heq⟩ | ⟨hnone, heq⟩
      · rw [heq]
        exact ha
      · have hne : c ≠ conn := by
          rintro rfl
          exact nomatch hnone.symm.trans ha
        rw [heq]
        exact (Table.get?_insert_of_ne _ _ hne).trans ha
    | logOut conn =>
      have hne : c ≠ conn := fun hc => hstay (hc ▸ rfl)
      exact (account?_withoutAccount reg conn c).trans ((if_neg hne).trans ha)
    | setSubscription conn t on =>
      show (reg.setSubscription conn t on).2.account? c = _
      rw [(setSubscription_edited reg conn t on).account?_eq, ha, Option.map_some]
      unfold Call.subscriptions
      dsimp only
      split <;> rfl
    | openRoom | closeRoom | updateRoom | takeSeat | changeSeat | leaveSeat => exact ha
  obtain ⟨j, hj⟩ := (call.sameAccounts reg).account?_eq c
  exact ⟨j, by rw [hj, hon]; rfl⟩

theorem account?_apply {reg : Registry} (call : Call) {c : ConnectionId} {a : Account}
    (ha : reg.account? c = some a) (hstay : call ≠ .logOut c) :
    ∃ b, (call.apply reg).account? c = some b ∧ b.outbox = a.outbox ∧
      b.subscriptions = call.subscriptions c a.subscriptions := by
  obtain ⟨j, hj⟩ := account?_apply_eq call ha hstay
  exact ⟨_, hj, rfl, rfl⟩

/-- An account that is not there comes with a login. -/
theorem account?_apply_of_none {reg : Registry} (call : Call) {c : ConnectionId}
    (hnone : reg.account? c = none) :
    (call.apply reg).account? c = none ∨ ∃ name outbox, call = .logIn c name outbox ∧
      (call.apply reg).account? c = some (reg.newcomer c name outbox) := by
  have hsame : (call.onAccounts reg).account? c = none → (call.apply reg).account? c = none := by
    intro hon
    obtain ⟨j, hj⟩ := (call.sameAccounts reg).account?_eq c
    rw [hj, hon]
    rfl
  cases call with
  | logIn conn name outbox =>
    show (reg.logIn conn name outbox).2.account? c = none ∨ _
    rcases logIn_cases reg conn name outbox with ⟨e, heq⟩ | ⟨hfree, -⟩
    · rw [heq]
      exact .inl hnone
    by_cases hc : c = conn
    · subst hc
      exact .inr ⟨name, outbox, rfl, (account?_logIn_of_none hfree c).trans (if_pos rfl)⟩
    · exact .inl ((account?_logIn_of_none hfree c).trans ((if_neg hc).trans hnone))
  | logOut conn =>
    refine .inl (hsame ?_)
    show (reg.withoutAccount conn).account? c = none
    rw [account?_withoutAccount, hnone]
    exact ite_self none
  | setSubscription conn t on =>
    refine .inl (hsame ?_)
    show (reg.setSubscription conn t on).2.account? c = none
    rw [(setSubscription_edited reg conn t on).account?_eq, hnone]
    rfl
  | openRoom | closeRoom | updateRoom | takeSeat | changeSeat | leaveSeat =>
    exact .inl (hsame hnone)

/-- Everybody's news goes to the own outbox. -/
def Housed (reg : Registry) : Prop :=
  ∀ c a, reg.account? c = some a → a.outbox = c

/-- Whoever logs in gets news at the own outbox. -/
def Call.Housed : Call → Prop
  | .logIn conn _ outbox => outbox = conn
  | _ => True

theorem Housed.apply {reg : Registry} (h : reg.Housed) {call : Call} (hcall : call.Housed) :
    (call.apply reg).Housed := by
  intro c b hb
  cases ha : reg.account? c with
  | none =>
    rcases account?_apply_of_none call ha with hnone | ⟨name, outbox, rfl, hnew⟩
    · exact nomatch hnone.symm.trans hb
    · rw [hb, Option.some.injEq] at hnew
      exact hnew ▸ hcall
  | some a =>
    by_cases hout : call = .logOut c
    · subst hout
      obtain ⟨j, hj⟩ := (Call.sameAccounts (.logOut c) reg).account?_eq c
      have hgone : (reg.withoutAccount c).account? c = none := by
        rw [account?_withoutAccount, if_pos rfl]
      rw [hb] at hj
      exact nomatch hj.trans (congrArg (Option.map _) hgone)
    · obtain ⟨b', hb', houtbox, -⟩ := account?_apply call ha hout
      rw [hb, Option.some.injEq] at hb'
      rw [hb', houtbox, h c a ha]

end GameLobby.Registry
