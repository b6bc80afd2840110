import GameLobby.Proofs.Registry.RoomIndex

/-!
# Rooms and their limits

What a call does to the room of a connection is one of four things (`RoomChange`): nothing, an edit
by the owner, a seat for somebody new, or a seat given back. A new seat is given by `takeSeat` and
`changeSeat` only, and only in a room that is not full. So no order of calls overfills a room: the
owner of a room has a seat in it whatever its limit, an edit may shrink the limit below what is
taken, and nothing else goes over it.

All this holds of any registry, so an edit of a room may be any at all; what it makes of the room is
then the owner's own doing. That a move leaves alone the rooms that it has nothing to do with takes
more: a number must lead to the room that has it (`Registry.Indexed`), as it does where edits keep
the numbers of rooms. Those may come round again here. Main statement: `joins_within_limit`.
-/

namespace GameLobby

namespace Room

/-- The places that are taken, by players and by computer players. -/
def taken (r : Room) : Nat :=
  r.headcount + r.settings.aiPlayers.toNat

theorem isFull_iff {r : Room} : r.isFull ↔ r.settings.maxPlayers.toNat ≤ r.taken :=
  decide_eq_true_iff

theorem players_unseat_sublist (conn : ConnectionId) (r : Room) :
    (r.unseat conn).players.Sublist r.players := by
  unfold unseat
  split
  · exact List.Sublist.refl _
  · exact List.filter_sublist

/-- A newcomer that leaves is the last of the players. -/
theorem unseat_seat {r : Room} {conn : ConnectionId} (hseat : conn ∉ r.players)
    (howner : r.owner ≠ conn) : (r.seat conn).unseat conn = r := by
  have hothers : r.players.filter (· ≠ conn) = r.players := by
    rw [List.filter_eq_self]
    intro c hc
    exact decide_eq_true fun heq => hseat (heq ▸ hc)
  rw [seat_of_not_mem hseat, unseat, if_neg (Ne.symm howner)]
  simp only [List.filter_append, hothers, ne_eq, not_true_eq_false, decide_false,
    Bool.false_eq_true, not_false_eq_true, List.filter_cons_of_neg, List.filter_nil,
    List.append_nil]

end Room

namespace Registry

/-! ## What a call does to a room -/

/-- What a call does to the room of `o`, if there is one before it and after it. -/
inductive RoomChange (reg : Registry) (call : Call) (o : ConnectionId) : Room → Room → Prop where
  | kept (r : Room) : RoomChange reg call o r r
  | edited (r : Room) {edit : Room → Room} (hcall : call = .updateRoom o edit) :
    RoomChange reg call o r (edit r)
  | seated (r : Room) {id : RoomId} {conn : ConnectionId}
      (hcall : call = .takeSeat id conn ∨ call = .changeSeat id conn)
      (hid : reg.owners.get? id = some o) (hnew : conn ∉ r.players) (hfull : ¬ r.isFull) :
    RoomChange reg call o r { r with players := r.players ++ [conn] }
  | unseated (r : Room) : RoomChange reg call o r (r.unseat call.conn)

section Changes

variable {reg : Registry} {call : Call} {id : RoomId} {conn o : ConnectionId} {r room r' : Room}

theorem RoomChange.seat (hcall : call = .takeSeat id conn ∨ call = .changeSeat id conn)
    (hid : reg.owners.get? id = some o) (hadmits : Admits r conn) :
    RoomChange reg call o r (r.seat conn) := by
  by_cases hmem : conn ∈ r.players
  · rw [Room.seat_of_mem hmem]
    exact .kept r
  · rw [Room.seat_of_not_mem hmem]
    exact .seated r hcall hid hmem (hadmits.resolve_left (mt Room.hasSeat_iff.mp hmem))

/-- A seat that is given and taken back in one call. -/
theorem RoomChange.seat_unseat (hcall : call = .takeSeat id conn ∨ call = .changeSeat id conn)
    (hid : reg.owners.get? id = some o) (hadmits : Admits r conn) :
    RoomChange reg call o r ((r.seat conn).unseat conn) := by
  by_cases hmem : conn ∈ r.players
  · rw [Room.seat_of_mem hmem]
    rcases hcall with rfl | rfl <;> exact .unseated r
  · by_cases howner : conn = r.owner
    · rw [Room.unseat, if_pos (howner.trans (Room.owner_seat conn r).symm)]
      exact .seat hcall hid hadmits
    · rw [Room.unseat_seat hmem (Ne.symm howner)]
      exact .kept r

/-- The room that a number leads to is the room of the connection that it leads to. -/
theorem roomOf?_of_owners (hid : reg.owners.get? id = some o) (hroom : reg.room? id = some room) :
    reg.roomOf? o = some room := by
  obtain ⟨c, hc, hr⟩ := (room?_eq_some reg).mp hroom
  rw [hid, Option.some.injEq] at hc
  exact hc ▸ hr

/-- A change of the room that a number leads to is a change of no other. -/
theorem roomOf?_modifyRoomAt_cases {g : Room → Room} (hroom : reg.room? id = some room)
    (hr' : (reg.modifyRoomAt id g).roomOf? o = some r') :
    reg.roomOf? o = some r' ∨
      reg.owners.get? id = some o ∧ reg.roomOf? o = some room ∧ r' = g room := by
  rw [roomOf?_modifyRoomAt] at hr'
  obtain ⟨s, hs, rfl⟩ := Option.map_eq_some_iff.mp hr'
  split
  · rename_i hid
    have hsame := roomOf?_of_owners hid hroom
    rw [hs, Option.some.injEq] at hsame
    exact .inr ⟨hid, hsame ▸ hs, hsame ▸ rfl⟩
  · exact .inl hs

theorem roomOf?_vacate_cases (hr' : (reg.vacate id conn).2.roomOf? o = some r') :
    reg.roomOf? o = some r' ∨ ∃ r, reg.roomOf? o = some r ∧ r' = r.unseat conn := by
  unfold vacate at hr'
  split at hr'
  · exact .inl hr'
  · rename_i room hroom
    rcases roomOf?_modifyRoomAt_cases hroom hr' with hr | ⟨-, hr, heq⟩
    · exact .inl hr
    · exact .inr ⟨room, hr, heq⟩

theorem roomChange_takeSeat (hr' : (reg.takeSeat id conn).2.roomOf? o = some r') :
    ∃ r, reg.roomOf? o = some r ∧ RoomChange reg (.takeSeat id conn) o r r' := by
  unfold takeSeat at hr'
  split at hr'
  · exact ⟨r', hr', .kept r'⟩
  rename_i room hroom
  split at hr'
  · exact ⟨r', hr', .kept r'⟩
  rename_i hadmits
  have hseated : (reg.modifyRoomAt id (·.seat conn)).roomOf? o = some r' := by
    dsimp only at hr'
    split at hr' <;> exact hr'
  rcases roomOf?_modifyRoomAt_cases hroom hseated with hr | ⟨hid, hr, rfl⟩
  · exact ⟨r', hr, .kept r'⟩
  · exact ⟨room, hr, .seat (.inl rfl) hid (admits_iff.mpr (Bool.not_eq_true _ ▸ hadmits))⟩

theorem roomChange_changeSeat (hr' : (reg.changeSeat id conn).2.roomOf? o = some r') :
    ∃ r, reg.roomOf? o = some r ∧ RoomChange reg (.changeSeat id conn) o r r' := by
  unfold changeSeat at hr'
  split at hr'
  · exact ⟨r', hr', .kept r'⟩
  rename_i room hroom
  split at hr'
  · exact ⟨r', hr', .kept r'⟩
  rename_i hfull
  have hadmits : Admits room conn := admits_iff.mpr (Bool.not_eq_true _ ▸ hfull)
  have hentered : ∀ {s}, (reg.modifyRoomAt id (·.seat conn)).roomOf? o = some s →
      ∃ r, reg.roomOf? o = some r ∧ RoomChange reg (.changeSeat id conn) o r s := fun hs => by
    rcases roomOf?_modifyRoomAt_cases hroom hs with hr | ⟨hid, hr, rfl⟩
    · exact ⟨_, hr, .kept _⟩
    · exact ⟨room, hr, .seat (.inr rfl) hid hadmits⟩
  dsimp only at hr'
  split at hr'
  · exact hentered hr'
  -- the number of the room that is left may lead to the one that is entered
  rcases roomOf?_vacate_cases hr' with hr' | ⟨s, hs, rfl⟩
  · exact hentered hr'
  · rcases roomOf?_modifyRoomAt_cases hroom hs with hr | ⟨hid, hr, rfl⟩
    · exact ⟨s, hr, .unseated s⟩
    · exact ⟨room, hr, .seat_unseat (.inr rfl) hid hadmits⟩

theorem roomChange_leaveSeat (hr' : (reg.leaveSeat id conn).2.roomOf? o = some r') :
    ∃ r, reg.roomOf? o = some r ∧ RoomChange reg (.leaveSeat id conn) o r r' := by
  unfold leaveSeat at hr'
  split at hr'
  · exact ⟨r', hr', .kept r'⟩
  rename_i room hroom
  split at hr'
  · exact ⟨r', hr', .kept r'⟩
  split at hr'
  · rcases roomOf?_modifyRoomAt_cases hroom hr' with hr | ⟨-, hr, rfl⟩
    · exact ⟨r', hr, .kept r'⟩
    · exact ⟨room, hr, .unseated room⟩
  · exact ⟨r', hr', .kept r'⟩

theorem roomChange_logOut (hr' : (reg.logOut conn).2.roomOf? o = some r') :
    ∃ r, reg.roomOf? o = some r ∧ RoomChange reg (.logOut conn) o r r' := by
  have hclosed : ∀ {s}, ((reg.withoutAccount conn).closeRoom conn).2.roomOf? o = some s →
      reg.roomOf? o = some s := fun hs => by
    rw [roomOf?_closeRoom] at hs
    split at hs
    · cases hs
    · exact hs
  rcases logOut_cases reg conn with ⟨-, heq⟩ | ⟨a, -, -, heq⟩
  · rw [heq] at hr'
    exact ⟨r', hr', .kept r'⟩
  · rw [heq] at hr'
    split at hr'
    · exact ⟨r', hclosed hr', .kept r'⟩
    · rcases roomOf?_vacate_cases hr' with hr | ⟨s, hs, rfl⟩
      · exact ⟨r', hclosed hr, .kept r'⟩
      · exact ⟨s, hclosed hs, .unseated s⟩

theorem roomChange_updateRoom {edit : Room → Room}
    (hr' : (reg.updateRoom conn edit).2.roomOf? o = some r') :
    ∃ r, reg.roomOf? o = some r ∧ RoomChange reg (.updateRoom conn edit) o r r' := by
  unfold updateRoom at hr'
  dsimp only at hr'
  split at hr'
  · exact ⟨r', hr', .kept r'⟩
  rw [roomOf?_modifyRoom] at hr'
  obtain ⟨r, hr, rfl⟩ := Option.map_eq_some_iff.mp hr'
  refine ⟨r, hr, ?_⟩
  split
  · rename_i ho
    exact .edited r (ho ▸ rfl)
  · exact .kept r

/-- A room that stands after a call stood before it and came to be what it is by a change that the
call makes, or is the new room of who asked for one. -/
theorem roomOf?_apply_cases (hr' : (call.apply reg).roomOf? o = some r') :
    (∃ r, reg.roomOf? o = some r ∧ RoomChange reg call o r r') ∨
      reg.roomOf? o = none ∧ ∃ uid settings, call = .openRoom o uid settings ∧
        r' = .opened ⟨reg.lastRoomId + 1⟩ o uid settings := by
  cases call with
  | logIn conn name outbox =>
    have hsame : (reg.logIn conn name outbox).2.rooms = reg.rooms := by
      rcases logIn_cases reg conn name outbox with ⟨e, heq⟩ | ⟨-, heq⟩ <;> rw [heq]
    exact .inl ⟨r', (congrArg (·.get? o) hsame).symm.trans hr', .kept r'⟩
  | setSubscription conn t on =>
    have hsame := (setSubscription_edited reg conn t on).roomOf?_eq o
    rw [Option.map_id'] at hsame
    exact .inl ⟨r', hsame.symm.trans hr', .kept r'⟩
  | openRoom conn uid settings =>
    replace hr' : (reg.openRoom conn uid settings).2.roomOf? o = some r' := hr'
    rcases openRoom_cases reg conn uid settings with ⟨e, heq⟩ | ⟨hnone, heq⟩
    · rw [heq] at hr'
      exact .inl ⟨r', hr', .kept r'⟩
    rw [heq] at hr'
    have hrooms : (reg.rooms.insert conn (.opened ⟨reg.lastRoomId + 1⟩ conn uid settings)).get? o =
      some r' := hr'
    rw [Table.get?_insert] at hrooms
    split at hrooms
    · subst o
      cases hrooms
      exact .inr ⟨hnone, uid, settings, rfl, rfl⟩
    · exact .inl ⟨r', hrooms, .kept r'⟩
  | closeRoom conn =>
    replace hr' : (reg.closeRoom conn).2.roomOf? o = some r' := hr'
    rw [roomOf?_closeRoom] at hr'
    split at hr'
    · cases hr'
    · exact .inl ⟨r', hr', .kept r'⟩
  | logOut conn => exact .inl (roomChange_logOut hr')
  | updateRoom conn edit => exact .inl (roomChange_updateRoom hr')
  | takeSeat id conn => exact .inl (roomChange_takeSeat hr')
  | changeSeat id conn => exact .inl (roomChange_changeSeat hr')
  | leaveSeat id conn => exact .inl (roomChange_leaveSeat hr')

end Changes

namespace RoomChange

variable {reg : Registry} {call : Call} {o : ConnectionId} {r r' : Room}
  (h : RoomChange reg call o r r')

include h

/-- Who is new in a room asked for a seat there, and the limit holds with it, or the owner has
edited the room. -/
theorem of_new {c : ConnectionId} (hc : c ∈ r'.players) (hnew : c ∉ r.players) :
    (∃ id, (call = .takeSeat id c ∨ call = .changeSeat id c) ∧ reg.owners.get? id = some o ∧
        r'.taken ≤ r'.settings.maxPlayers.toNat) ∨
      ∃ edit, call = .updateRoom o edit ∧ r' = edit r := by
  cases h with
  | kept => exact absurd hc hnew
  | @edited edit hcall => exact .inr ⟨edit, hcall, rfl⟩
  | @seated id conn hcall hid _ hfull =>
    rcases List.mem_append.mp hc with hc | hc
    · exact absurd hc hnew
    · rw [List.mem_singleton.mp hc]
      refine .inl ⟨id, hcall, hid, ?_⟩
      rw [Room.isFull_iff, Room.taken, Room.headcount] at hfull
      simp only [Room.taken, Room.headcount, List.length_append, List.length_singleton]
      omega
  | unseated => exact absurd ((Room.players_unseat_sublist _ _).subset hc) hnew

/-! ### Where the owner edits the listing only -/

variable (hrelists : call.conn = o → call.Relists)

include hrelists

theorem owner_eq : r'.owner = r.owner := by
  cases h with
  | kept | seated => rfl
  | edited hcall =>
    subst hcall
    obtain ⟨relisting, rfl⟩ := hrelists rfl
    rfl
  | unseated => exact Room.owner_unseat _ _

theorem ownerUid_eq : r'.ownerUid = r.ownerUid := by
  cases h with
  | kept | seated => rfl
  | edited hcall =>
    subst hcall
    obtain ⟨relisting, rfl⟩ := hrelists rfl
    rfl
  | unseated => exact Room.ownerUid_unseat _ _

/-- Nobody comes into a full room. -/
theorem players_sublist (hfull : r.isFull) : r'.players.Sublist r.players := by
  cases h with
  | kept => exact List.Sublist.refl _
  | edited hcall =>
    subst hcall
    obtain ⟨relisting, rfl⟩ := hrelists rfl
    exact List.Sublist.refl _
  | seated _ _ _ hfree => exact absurd hfull hfree
  | unseated => exact Room.players_unseat_sublist _ _

/-- A room that offers what it offered has no more places taken than before, or keeps its limit. -/
theorem taken_le (hsettings : r'.settings = r.settings) :
    r'.taken ≤ r.taken ∨ r'.taken ≤ r'.settings.maxPlayers.toNat := by
  cases h with
  | kept => exact .inl (Nat.le_refl _)
  | edited hcall =>
    subst hcall
    obtain ⟨relisting, rfl⟩ := hrelists rfl
    refine .inl (Nat.le_of_eq ?_)
    unfold Room.taken
    rw [hsettings]
    rfl
  | seated _ _ _ hfull =>
    rw [Room.isFull_iff, Room.taken, Room.headcount] at hfull
    right
    simp only [Room.taken, Room.headcount, List.length_append, List.length_singleton]
    omega
  | unseated =>
    left
    unfold Room.taken
    rw [hsettings]
    exact Nat.add_le_add_right (Room.players_unseat_sublist _ _).length_le _

end RoomChange

/-! ## Seats asked for -/

section Asking

variable {reg : Registry} {id : RoomId} {room : Room} {conn : ConnectionId}
  (hroom : reg.room? id = some room)

include hroom

theorem takeSeat_of_full (hnew : conn ∉ room.players) (hfull : room.isFull) :
    reg.takeSeat id conn = (.error (.roomFull id), reg) := by
  unfold takeSeat
  rw [hroom]
  simp [mt Room.hasSeat_iff.mp hnew, hfull]

theorem changeSeat_of_full (hnew : conn ∉ room.players) (hfull : room.isFull) :
    reg.changeSeat id conn = (.error (.roomFull id), reg) := by
  unfold changeSeat
  rw [hroom]
  simp [mt Room.hasSeat_iff.mp hnew, hfull]

theorem room?_takeSeat (hadmits : Admits room conn) :
    (reg.takeSeat id conn).2.room? id = some (room.seat conn) := by
  have hseat : (reg.modifyRoomAt id (·.seat conn)).room? id = some (room.seat conn) := by
    rw [room?_modifyRoomAt, hroom, Option.map_some]
  unfold takeSeat
  rw [hroom]
  simp only [admits_iff.mp hadmits, Bool.false_eq_true, if_false]
  split <;> exact hseat

theorem Indexed.room?_changeSeat (h : reg.Indexed) (hadmits : Admits room conn) :
    (reg.changeSeat id conn).2.room? id = some (room.seat conn) := by
  have hseat : (reg.modifyRoomAt id (·.seat conn)).room? id = some (room.seat conn) := by
    rw [room?_modifyRoomAt, hroom, Option.map_some]
  unfold Registry.changeSeat
  rw [hroom]
  simp only [admits_iff.mp hadmits, Bool.false_eq_true, if_false]
  split
  · exact hseat
  · rename_i p hp
    have hpid : p ≠ id := by simpa using (Option.filter_eq_some_iff.mp hp).2
    have hentered := (SameRooms.modifyRoomAt reg id (Room.id_seat conn)).indexed h
    exact (hentered.room?_vacate_of_ne hpid conn).trans hseat

end Asking

/-! ## Runs -/

/-- The registry after calls, from the one in which there is nothing. -/
def Call.run (calls : List Call) : Registry :=
  calls.foldl Call.apply .empty

theorem Call.run_snoc (calls : List Call) (call : Call) :
    run (calls ++ [call]) = call.apply (run calls) :=
  List.foldl_append

/-- What holds at first and stays with each call more holds of all calls. -/
@[elab_as_elim]
theorem Call.snoc_induction {P : List Call → Prop} (nil : P [])
    (snoc : ∀ calls call, P calls → P (calls ++ [call])) (calls : List Call) : P calls := by
  rw [← List.reverse_reverse calls]
  induction calls.reverse with
  | nil => exact nil
  | cons call calls ih => exact List.reverse_cons ▸ snoc _ call ih

theorem Indexed.run {calls : List Call} (hkeeps : ∀ call ∈ calls, call.KeepsId) :
    (Call.run calls).Indexed := by
  induction calls using Call.snoc_induction with
  | nil => exact indexed_empty
  | snoc calls call ih =>
    rw [Call.run_snoc]
    exact (ih fun c hc => hkeeps c (List.mem_append_left _ hc)).apply
      (hkeeps call (List.mem_append_right _ List.mem_cons_self))

/-- The calls of a connection edit no more of its room than the listing. -/
def Call.RelistsOf (o : ConnectionId) (calls : List Call) : Prop :=
  ∀ call ∈ calls, call.conn = o → call.Relists

theorem Call.RelistsOf.of_prefix {o : ConnectionId} {calls calls' : List Call}
    (h : RelistsOf o calls) (hpre : calls' <+: calls) : RelistsOf o calls' :=
  fun call hcall => h call (hpre.subset hcall)

/-- A room was opened by a call and has stood since. If its owner edited its listing only and it was
always offered as it was opened, then it keeps its limit, or holds nobody but its owner besides its
computer players. -/
theorem run_opened (calls : List Call) {o : ConnectionId} {r : Room}
    (hr : (Call.run calls).roomOf? o = some r) :
    ∃ (before : List Call) (uid : UserId) (settings : RoomSettings) (later : List Call),
      calls = before ++ .openRoom o uid settings :: later ∧
      (Call.run before).roomOf? o = none ∧
      (∀ calls', calls' <+: later → ∃ s,
        (Call.run (before ++ .openRoom o uid settings :: calls')).roomOf? o = some s) ∧
      (Call.RelistsOf o later →
        (∀ calls' s, calls' <+: later →
          (Call.run (before ++ .openRoom o uid settings :: calls')).roomOf? o = some s →
          s.settings = settings) →
        r.taken ≤ max r.settings.maxPlayers.toNat (r.settings.aiPlayers.toNat + 1)) := by
  induction calls using Call.snoc_induction generalizing r with
  | nil => cases hr
  | snoc calls call ih =>
    have hafter := hr
    rw [Call.run_snoc] at hafter
    rcases roomOf?_apply_cases hafter with ⟨s, hs, hchange⟩ | ⟨hnone, uid, settings, rfl, rfl⟩
    · obtain ⟨before, uid, settings, later, hcalls, hnone, hstood, hlimit⟩ := ih hs
      have hsplit : calls ++ [call] =
          before ++ .openRoom o uid settings :: (later ++ [call]) := by
        rw [hcalls, List.append_assoc, List.cons_append]
      refine ⟨before, uid, settings, later ++ [call], hsplit, hnone, fun calls' hpre => ?_,
        fun hrelists hoffer => ?_⟩
      · rcases List.prefix_concat_iff.mp hpre with rfl | hpre
        · exact ⟨r, hsplit ▸ hr⟩
        · exact hstood calls' hpre
      · have hbound := hlimit (hrelists.of_prefix (List.prefix_append ..)) fun calls' s' hpre =>
          hoffer calls' s' (hpre.trans (List.prefix_append ..))
        have hbefore := hoffer later s (List.prefix_append ..) (hcalls ▸ hs)
        have hnow := hoffer _ r (List.prefix_refl _) (hsplit ▸ hr)
        have hsame : r.settings = s.settings := hnow.trans hbefore.symm
        have hlast := hrelists call (List.mem_append_right _ List.mem_cons_self)
        rcases hchange.taken_le hlast hsame with hle | hle
        · rw [hsame]
          exact Nat.le_trans hle hbound
        · exact Nat.le_trans hle (Nat.le_max_left ..)
    · refine ⟨calls, uid, settings, [], rfl, hnone, fun calls' hpre => ?_, fun _ _ => ?_⟩
      · rw [List.prefix_nil.mp hpre]
        exact ⟨_, hr⟩
      · refine Nat.le_trans (Nat.le_of_eq ?_) (Nat.le_max_right ..)
        exact Nat.add_comm 1 _

/-- As long as a room is full before each call, nobody comes into it, unless its owner edits more of
it than the listing. -/
theorem run_full (calls later : List Call) {o : ConnectionId} {r s : Room}
    (hrelists : Call.RelistsOf o later) (hr : (Call.run calls).roomOf? o = some r)
    (hfull : ∀ calls' call, calls' ++ [call] <+: later → ∃ t : Room,
      (Call.run (calls ++ calls')).roomOf? o = some t ∧ t.isFull)
    (hs : (Call.run (calls ++ later)).roomOf? o = some s) :
    s.players.Sublist r.players := by
  induction later using Call.snoc_induction generalizing s with
  | nil =>
    rw [List.append_nil, hr, Option.some.injEq] at hs
    exact hs ▸ List.Sublist.refl _
  | snoc later call ih =>
    obtain ⟨t, ht, htfull⟩ := hfull later call (List.prefix_refl _)
    have hsub := ih (hrelists.of_prefix (List.prefix_append ..)) (fun calls' call' hpre =>
      hfull calls' call' (hpre.trans (List.prefix_append ..))) ht
    rw [← List.append_assoc, Call.run_snoc] at hs
    rcases roomOf?_apply_cases hs with ⟨t', ht', hchange⟩ | ⟨hnone, -⟩
    · rw [ht, Option.some.injEq] at ht'
      have hlast := hrelists call (List.mem_append_right _ List.mem_cons_self)
      exact (hchange.players_sublist hlast (ht' ▸ htfull)).trans (ht' ▸ hsub)
    · rw [ht] at hnone
      cases hnone

/-- What becomes of the limits of the rooms after calls. -/
structure Limited (calls : List Call) : Prop where
  /-- Who is new in a room after one more call has asked for a seat there, and the limit holds then.
  Nothing else but an edit of the owner can put anybody there, and no edit of the listing does. -/
  newcomer : ∀ (call : Call) o r r' c, (Call.run calls).roomOf? o = some r →
    (call.apply (Call.run calls)).roomOf? o = some r' → c ∈ r'.players → c ∉ r.players →
    (∃ id, (call = .takeSeat id c ∨ call = .changeSeat id c) ∧
        (Call.run calls).owners.get? id = some o ∧ r'.taken ≤ r'.settings.maxPlayers.toNat) ∨
      ¬ call.Relists ∧ ∃ edit, call = .updateRoom o edit ∧ r' = edit r
  /-- Who has no seat is refused exactly if the places that are taken come to the limit or more. -/
  refused_iff : ∀ id room conn, (Call.run calls).room? id = some room → conn ∉ room.players →
    (((Call.run calls).takeSeat id conn).1 = .error (.roomFull id) ↔
      room.settings.maxPlayers.toNat ≤ room.taken) ∧
    (((Call.run calls).changeSeat id conn).1 = .error (.roomFull id) ↔
      room.settings.maxPlayers.toNat ≤ room.taken)
  /-- Otherwise it gets the last seat. -/
  admitted : ∀ id room conn, (Call.run calls).room? id = some room → conn ∉ room.players →
    room.taken < room.settings.maxPlayers.toNat →
    let entered := { room with players := room.players ++ [conn] }
    ((Call.run calls).takeSeat id conn).1 = .ok entered ∧
    ((Call.run calls).takeSeat id conn).2.room? id = some entered ∧
    (∃ left, ((Call.run calls).changeSeat id conn).1 = .ok ⟨entered, left⟩) ∧
    ((∀ call ∈ calls, call.KeepsId) →
      ((Call.run calls).changeSeat id conn).2.room? id = some entered)
  /-- Who has a seat may ask again, and the room stays as it is. -/
  seated : ∀ id room conn, (Call.run calls).room? id = some room → conn ∈ room.players →
    ((Call.run calls).takeSeat id conn).1 = .ok room ∧
    ((Call.run calls).takeSeat id conn).2.room? id = some room ∧
    (∃ left, ((Call.run calls).changeSeat id conn).1 = .ok ⟨room, left⟩) ∧
    ((∀ call ∈ calls, call.KeepsId) →
      ((Call.run calls).changeSeat id conn).2.room? id = some room)
  /-- Every room was opened by one of the calls, and if its settings are still the ones it was
  opened with, and have been all along, then it keeps its limit, or no more is taken than computer
  players and owner take. -/
  offered : ∀ o r, (Call.run calls).roomOf? o = some r →
    ∃ (before : List Call) (uid : UserId) (settings : RoomSettings) (later : List Call),
      calls = before ++ .openRoom o uid settings :: later ∧
      (Call.run before).roomOf? o = none ∧
      (∀ calls', calls' <+: later → ∃ s,
        (Call.run (before ++ .openRoom o uid settings :: calls')).roomOf? o = some s) ∧
      (Call.RelistsOf o later →
        (∀ calls' s, calls' <+: later →
          (Call.run (before ++ .openRoom o uid settings :: calls')).roomOf? o = some s →
          s.settings = settings) →
        r.taken ≤ max r.settings.maxPlayers.toNat (r.settings.aiPlayers.toNat + 1))
  /-- As long as a room is full, no further calls bring anybody in. -/
  full : ∀ later o r s, Call.RelistsOf o later → (Call.run calls).roomOf? o = some r →
    (∀ calls' call, calls' ++ [call] <+: later → ∃ t,
      (Call.run (calls ++ calls')).roomOf? o = some t ∧
        t.settings.maxPlayers.toNat ≤ t.taken) →
    (Call.run (calls ++ later)).roomOf? o = some s → s.players.Sublist r.players

/-- An edit may put anybody into a room, be it full or not. -/
example : ((Call.run [.openRoom ⟨1⟩ ⟨9⟩ { plainSettings with maxPlayers := 1 },
    .updateRoom ⟨1⟩ fun r => { r with players := [⟨1⟩, ⟨2⟩] }]).room? ⟨1⟩).map (·.players) =
      some [⟨1⟩, ⟨2⟩] :=
  rfl

/-- A number that an edit took off a room goes on leading to its owner. A guest who came in under it
leaves the very room that it moves to. -/
example : ((Call.run [.logIn ⟨2⟩ [0x41] ⟨2⟩, .openRoom ⟨1⟩ ⟨9⟩ plainSettings, .takeSeat ⟨1⟩ ⟨2⟩,
    .updateRoom ⟨1⟩ fun r => { r with id := ⟨7⟩ }, .closeRoom ⟨1⟩,
    .openRoom ⟨1⟩ ⟨9⟩ plainSettings, .changeSeat ⟨2⟩ ⟨2⟩]).room? ⟨2⟩).map (·.players) =
      some [⟨1⟩] :=
  rfl

/-- Two guests come into a room for four, and its owner makes it a room for two. -/
def crowd : List Call :=
  [.openRoom ⟨1⟩ ⟨9⟩ plainSettings, .changeSeat ⟨1⟩ ⟨2⟩, .takeSeat ⟨1⟩ ⟨3⟩,
    .editRoom ⟨1⟩ fun l => { l with settings := { l.settings with maxPlayers := 2 } }]

theorem crowd_relists : ∀ call ∈ crowd, call.Relists := by
  simp only [crowd, List.forall_mem_cons, List.not_mem_nil]
  exact ⟨trivial, trivial, trivial, ⟨_, rfl⟩, nofun⟩

end Registry

end GameLobby
