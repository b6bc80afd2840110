import GameLobby.Proofs.Registry.Answers
import GameLobby.Proofs.Registry.Seats

/-!
# Moves are leaving and entering

A move to a room, `changeSeat`, comes to the same as giving up the seat in the room joined before,
if that is another one, and taking a seat in the new room. Both ways lead to the same registry, down
to the order of its tables: a change in place is known by what it does to accounts and rooms, since
the keys stay as they are (`Edited.eq`). In the same way a move made twice is a move made once, and
a visit leaves nothing behind.

Main statement: `changeSeat_eq_leaveSeat_then_takeSeat`.
-/

namespace GameLobby

namespace Registry

variable {reg reg' reg'' : Registry}

/-! ## Changes in place keep the keys -/

/-- The accounts and rooms of `reg'` are filed under the same keys as those of `reg`, in the same
order. -/
structure SameKeys (reg reg' : Registry) : Prop where
  accounts_eq : reg'.accounts.keys = reg.accounts.keys
  rooms_eq : reg'.rooms.keys = reg.rooms.keys

namespace SameKeys

theorem refl (reg : Registry) : reg.SameKeys reg :=
  ⟨rfl, rfl⟩

theorem trans (h : reg.SameKeys reg') (h' : reg'.SameKeys reg'') : reg.SameKeys reg'' :=
  ⟨h'.accounts_eq.trans h.accounts_eq, h'.rooms_eq.trans h.rooms_eq⟩

theorem modifyAccount (reg : Registry) (conn : ConnectionId) (f : Account → Account) :
    reg.SameKeys (reg.modifyAccount conn f) :=
  ⟨Table.keys_modify _ _ _, rfl⟩

theorem modifyRoomAt (reg : Registry) (id : RoomId) (g : Room → Room) :
    reg.SameKeys (reg.modifyRoomAt id g) := by
  unfold Registry.modifyRoomAt
  split
  · exact refl reg
  · exact ⟨rfl, Table.keys_modify _ _ _⟩

theorem vacate (reg : Registry) (id : RoomId) (conn : ConnectionId) :
    reg.SameKeys (reg.vacate id conn).2 := by
  unfold Registry.vacate
  split
  · exact refl reg
  · exact modifyRoomAt reg _ _

theorem takeSeat (reg : Registry) (id : RoomId) (conn : ConnectionId) :
    reg.SameKeys (reg.takeSeat id conn).2 := by
  unfold Registry.takeSeat
  split
  · exact refl reg
  · rename_i room _
    dsimp only
    split
    · exact refl reg
    · have hseat := modifyRoomAt reg id (·.seat conn)
      split
      · exact hseat
      · exact hseat.trans (modifyAccount _ conn _)

theorem changeSeat (reg : Registry) (id : RoomId) (conn : ConnectionId) :
    reg.SameKeys (reg.changeSeat id conn).2 := by
  unfold Registry.changeSeat
  split
  · exact refl reg
  · rename_i room _
    dsimp only
    split
    · exact refl reg
    · have hseat := modifyRoomAt reg id (·.seat conn)
      split
      · exact hseat.trans (modifyAccount _ conn _)
      · exact (hseat.trans (vacate _ _ conn)).trans (modifyAccount _ conn _)

theorem leaveSeat (reg : Registry) (id : RoomId) (conn : ConnectionId) :
    reg.SameKeys (reg.leaveSeat id conn).2 := by
  unfold Registry.leaveSeat
  split
  · exact refl reg
  · rename_i room _
    dsimp only
    split
    · exact refl reg
    · split
      · exact (modifyRoomAt reg id _).trans (modifyAccount _ conn _)
      · exact refl reg

end SameKeys

/-- A change in place is known by what it does to accounts and rooms. -/
theorem Edited.eq {f : ConnectionId → Account → Account} {g : Room → Room}
    (h : reg.Edited reg' f g) (h' : reg.Edited reg'' f g) (hkeys : reg.SameKeys reg')
    (hkeys' : reg.SameKeys reg'') : reg' = reg'' := by
  have haccounts : reg'.accounts = reg''.accounts :=
    Table.ext_get? (hkeys.accounts_eq.trans hkeys'.accounts_eq.symm) fun c =>
      (h.account?_eq c).trans (h'.account?_eq c).symm
  have hrooms : reg'.rooms = reg''.rooms :=
    Table.ext_get? (hkeys.rooms_eq.trans hkeys'.rooms_eq.symm) fun o =>
      (h.roomOf?_eq o).trans (h'.roomOf?_eq o).symm
  have howners := h.owners_eq.trans h'.owners_eq.symm
  have huid := h.lastUid_eq.trans h'.lastUid_eq.symm
  have hid := h.lastRoomId_eq.trans h'.lastRoomId_eq.symm
  cases reg'
  cases reg''
  simp only at haccounts hrooms howners huid hid
  rw [haccounts, hrooms, howners, huid, hid]

/-! ## When seats are given and given up -/

section Answers

variable {id : RoomId} {conn : ConnectionId} {room : Room}

/-- A move is refused as the seat itself would be. -/
theorem changeSeat_eq_error_iff {e : RegistryError} :
    (reg.changeSeat id conn).1 = .error e ↔ (reg.takeSeat id conn).1 = .error e := by
  unfold changeSeat takeSeat
  split
  · rw [Except.error.injEq, Except.error.injEq]
  · dsimp only
    split
    · rw [Except.error.injEq, Except.error.injEq]
    · exact iff_of_false (by simp) (by simp)

theorem Filed.takeSeat_edited (h : reg.Filed) (hroom : reg.room? id = some room)
    (hadmits : Admits room conn) :
    reg.Edited (reg.takeSeat id conn).2
      (fun c a => if c = conn ∧ room.owner ≠ conn then { a with joinedRoom := some id } else a)
      (fun r => if r.id = id then r.seat conn else r) := by
  rcases h.takeSeat_cases id conn with ⟨e, heq⟩ | ⟨r, hr, -, -, he⟩
  · have hok := takeSeat_of_admits hroom hadmits
    rw [heq] at hok
    cases hok
  · rw [hroom] at hr
    cases hr
    exact he

theorem Filed.changeSeat_edited (h : reg.Filed) (hroom : reg.room? id = some room)
    (hadmits : Admits room conn) :
    (reg.changeSeat id conn).1 =
        .ok ⟨room.seat conn,
          ((reg.joined? conn).filter (· ≠ id)).bind fun p => (reg.room? p).map (·.unseat conn)⟩ ∧
      reg.Edited (reg.changeSeat id conn).2
        (fun c a =>
          if c = conn then { a with joinedRoom := if room.owner = conn then none else some id }
          else a)
        (fun r =>
          if r.id = id then r.seat conn
          else if reg.joined? conn = some r.id then r.unseat conn else r) := by
  rcases h.changeSeat_cases id conn with ⟨e, heq⟩ | ⟨r, hr, -, hanswer, he⟩
  · obtain ⟨left, hok⟩ := changeSeat_of_admits hroom hadmits
    rw [heq] at hok
    cases hok
  · rw [hroom] at hr
    cases hr
    exact ⟨hanswer, he⟩

theorem Filed.leaveSeat_edited (h : reg.Filed) (hroom : reg.room? id = some room)
    (howner : room.owner ≠ conn) (hseat : conn ∈ room.players) :
    (reg.leaveSeat id conn).1 = .ok (room.unseat conn) ∧
      reg.Edited (reg.leaveSeat id conn).2
        (fun c a => if c = conn ∧ a.joinedRoom = some id then { a with joinedRoom := none } else a)
        (fun r => if r.id = id then r.unseat conn else r) := by
  rcases h.leaveSeat_cases id conn with ⟨e, heq⟩ | ⟨r, hr, -, -, hanswer, he⟩
  · unfold leaveSeat at heq
    rw [hroom] at heq
    dsimp only at heq
    rw [if_neg howner, if_pos (Room.hasSeat_iff.mpr hseat)] at heq
    cases heq
  · rw [hroom] at hr
    cases hr
    exact ⟨hanswer, he⟩

end Answers

/-! ## Moves -/

namespace WellFormed

variable {id p : RoomId} {conn : ConnectionId} {room : Room}

/-- Nobody has joined the own room. -/
theorem joined?_ne_of_owner (h : reg.WellFormed) (hroom : reg.room? id = some room)
    (howner : room.owner = conn) : reg.joined? conn ≠ some id := by
  intro hj
  obtain ⟨a, ha, hnote⟩ := Option.bind_eq_some_iff.mp hj
  obtain ⟨r, hr, -, hne⟩ := h.joined_seat ha hnote
  rw [hroom] at hr
  cases hr
  exact hne howner

/-- A move that gives up no seat is a seat taken. -/
theorem changeSeat_eq_takeSeat (h : reg.WellFormed)
    (hjoined : reg.joined? conn = none ∨ reg.joined? conn = some id)
    (hroom : reg.room? id = some room) (hadmits : Admits room conn) :
    (reg.changeSeat id conn).1 = .ok ⟨room.seat conn, none⟩ ∧
      (reg.takeSeat id conn).2 = (reg.changeSeat id conn).2 := by
  obtain ⟨hanswer, hmove⟩ := h.changeSeat_edited hroom hadmits
  constructor
  · rcases hjoined with hj | hj
    · rw [hanswer, hj]
      rfl
    · rw [hanswer, hj, Option.filter_some, if_neg (by simp)]
      rfl
  · refine (h.takeSeat_edited hroom hadmits).eq (hmove.congr (fun c a ha => ?_) fun o r _ => ?_)
      (.takeSeat reg id conn) (.changeSeat reg id conn)
    · by_cases hc : c = conn
      · subst hc
        by_cases howner : room.owner = c
        -- a seat taken does not touch the note of an owner, but there is none to be cleared
        · have hnone : a.joinedRoom = none := by
            rw [← joined?_eq ha]
            exact hjoined.resolve_right (h.joined?_ne_of_owner hroom howner)
          simp [howner, ← hnone]
        · simp [howner]
      · simp [hc]
    · by_cases hid : r.id = id
      · simp [hid]
      · have hother : reg.joined? conn ≠ some r.id := by
          rcases hjoined with hj | hj
          · simp [hj]
          · rw [hj]
            exact fun heq => hid (Option.some.inj heq).symm
        simp [hid, hother]

/-- A move that gives up a seat is that seat given up and the new one taken. -/
theorem changeSeat_eq_leaveSeat_takeSeat (h : reg.WellFormed) (hj : reg.joined? conn = some p)
    (hne : p ≠ id) (hroom : reg.room? id = some room) (hadmits : Admits room conn) :
    ∃ left, (reg.leaveSeat p conn).1 = .ok left ∧
      (reg.changeSeat id conn).1 = .ok ⟨room.seat conn, some left⟩ ∧
      (reg.leaveSeat p conn).2.takeSeat id conn =
        (.ok (room.seat conn), (reg.changeSeat id conn).2) := by
  obtain ⟨a, ha, hnote⟩ := Option.bind_eq_some_iff.mp hj
  obtain ⟨old, hold, hseat, howner⟩ := h.joined_seat ha hnote
  obtain ⟨hleft, hleave⟩ := h.leaveSeat_edited hold howner hseat
  obtain ⟨hanswer, hmove⟩ := h.changeSeat_edited hroom hadmits
  have hroom' : (reg.leaveSeat p conn).2.room? id = some room := by
    rw [hleave.room?_eq, hroom, Option.map_some, if_neg]
    exact fun heq => hne (heq.symm.trans (h.id_of_room? hroom))
  have htake := (h.leaveSeat p conn).takeSeat_edited hroom' hadmits
  refine ⟨old.unseat conn, hleft, ?_, Prod.ext (takeSeat_of_admits hroom' hadmits) ?_⟩
  · rw [hanswer, hj, Option.filter_some, if_pos (by simpa using hne), Option.bind_some, hold]
    rfl
  · refine (hleave.trans htake).eq (hmove.congr (fun c b hb => ?_) fun o r _ => ?_)
      ((SameKeys.leaveSeat reg p conn).trans (.takeSeat _ id conn)) (.changeSeat reg id conn)
    · by_cases hc : c = conn
      · subst hc
        rw [ha] at hb
        cases hb
        by_cases howner : room.owner = c <;> simp [howner, hnote]
      · simp [hc]
    · by_cases hid : r.id = id
      · simp [hid, Ne.symm hne]
      · by_cases hp : r.id = p
        · simp [hp, hj, hne]
        · simp [hid, hp, hj, Ne.symm hp]

theorem room?_id_changeSeat (h : reg.WellFormed) (hroom : reg.room? id = some room)
    (hadmits : Admits room conn) : (reg.changeSeat id conn).2.room? id = some (room.seat conn) := by
  rw [(h.changeSeat_edited hroom hadmits).2.room?_eq, hroom, Option.map_some,
    if_pos (h.id_of_room? hroom)]

/-- After a move the account notes the room, unless it is its own. -/
theorem joinedRoom_changeSeat (h : reg.WellFormed) (hroom : reg.room? id = some room)
    (hadmits : Admits room conn) {a : Account}
    (ha : (reg.changeSeat id conn).2.account? conn = some a) :
    a.joinedRoom = if room.owner = conn then none else some id := by
  rw [(h.changeSeat_edited hroom hadmits).2.account?_eq] at ha
  obtain ⟨b, -, rfl⟩ := Option.map_eq_some_iff.mp ha
  rw [if_pos rfl]

/-- A seat that is taken already is taken again without change, where the account notes it. -/
theorem takeSeat_of_mem (h : reg.WellFormed) (hroom : reg.room? id = some room)
    (hmem : conn ∈ room.players)
    (hnote : ∀ a, reg.account? conn = some a → room.owner ≠ conn → a.joinedRoom = some id) :
    (reg.takeSeat id conn).2 = reg := by
  have htake := h.takeSeat_edited hroom (.inl (Room.hasSeat_iff.mpr hmem))
  refine htake.eq ((Edited.refl reg).congr (fun c a ha => ?_) fun o r hr => ?_)
    (.takeSeat reg id conn) (.refl reg)
  · by_cases hc : c = conn ∧ room.owner ≠ conn
    · obtain ⟨rfl, howner⟩ := hc
      simp [howner, ← hnote a ha howner]
    · rw [if_neg hc]
  · by_cases hid : r.id = id
    · rw [← hid, h.room?_of_roomOf? hr] at hroom
      cases hroom
      rw [if_pos hid, Room.seat_of_mem hmem]
    · rw [if_neg hid]

/-- A move made again changes nothing. -/
theorem changeSeat_changeSeat (h : reg.WellFormed) (hroom : reg.room? id = some room)
    (hadmits : Admits room conn) :
    (reg.changeSeat id conn).2.changeSeat id conn =
      (.ok ⟨room.seat conn, none⟩, (reg.changeSeat id conn).2) := by
  have hmem : conn ∈ (room.seat conn).players := Room.mem_players_seat.mpr (.inr rfl)
  have hroom' := h.room?_id_changeSeat hroom hadmits
  have hjoined : (reg.changeSeat id conn).2.joined? conn = none ∨
      (reg.changeSeat id conn).2.joined? conn = some id := by
    cases ha : (reg.changeSeat id conn).2.account? conn with
    | none =>
      rw [joined?, ha]
      exact .inl rfl
    | some a =>
      rw [joined?_eq ha, h.joinedRoom_changeSeat hroom hadmits ha]
      split
      · exact .inl rfl
      · exact .inr rfl
  obtain ⟨hanswer, hsame⟩ := (h.changeSeat id conn).changeSeat_eq_takeSeat hjoined hroom'
    (.inl (Room.hasSeat_iff.mpr hmem))
  rw [Room.seat_of_mem hmem] at hanswer
  refine Prod.ext hanswer (hsame.symm.trans ?_)
  refine (h.changeSeat id conn).takeSeat_of_mem hroom' hmem fun a ha howner => ?_
  rw [Room.owner_seat] at howner
  rw [h.joinedRoom_changeSeat hroom hadmits ha, if_neg howner]

/-- Who visits a room and leaves it leaves nothing behind. -/
theorem leaveSeat_changeSeat (h : reg.WellFormed) (hj : reg.joined? conn = none)
    (hroom : reg.room? id = some room) (hnew : conn ∉ room.players)
    (hadmits : Admits room conn) :
    (reg.changeSeat id conn).2.leaveSeat id conn = (.ok room, reg) := by
  have howner : room.owner ≠ conn := by
    intro heq
    exact hnew (heq ▸ h.owner_mem_players (h.roomOf?_owner hroom))
  have hroom' := h.room?_id_changeSeat hroom hadmits
  have hmem : conn ∈ (room.seat conn).players := Room.mem_players_seat.mpr (.inr rfl)
  obtain ⟨-, hmove⟩ := h.changeSeat_edited hroom hadmits
  obtain ⟨hanswer, hleave⟩ := (h.changeSeat id conn).leaveSeat_edited hroom'
    ((Room.owner_seat conn room).symm ▸ howner) hmem
  rw [Room.unseat_seat hnew howner] at hanswer
  refine Prod.ext hanswer ?_
  refine (hmove.trans hleave).eq ((Edited.refl reg).congr (fun c a ha => ?_) fun o r hr => ?_)
    ((SameKeys.changeSeat reg id conn).trans (.leaveSeat _ id conn)) (.refl reg)
  · by_cases hc : c = conn
    · subst hc
      rw [joined?_eq ha] at hj
      simp [howner, ← hj]
    · simp [hc]
  · by_cases hid : r.id = id
    · rw [← hid, h.room?_of_roomOf? hr] at hroom
      cases hroom
      simp [hid, Room.unseat_seat hnew howner]
    · simp [hid, hj]

end WellFormed

/-- **Moves.** In a registry that calls by anybody lead to, a move is refused as the seat itself
would be and changes nothing then. If it goes through, it comes to giving up the seat in the room
joined before, if that is another one, and taking the new one, with the same answers and down to the
whole registry. The same move again changes nothing, and who had joined no room and goes back from
one that it was not in leaves the registry as it was before. -/
theorem changeSeat_eq_leaveSeat_then_takeSeat (h : ReachedBy (fun _ _ => True) reg) (id : RoomId)
    (conn : ConnectionId) :
    (∀ e, (reg.changeSeat id conn).1 = .error e ↔ (reg.takeSeat id conn).1 = .error e) ∧
    (∀ e, (reg.changeSeat id conn).1 = .error e → (reg.changeSeat id conn).2 = reg) ∧
    ∀ change, (reg.changeSeat id conn).1 = .ok change →
      (reg.joined? conn = none ∨ reg.joined? conn = some id → change.left = none ∧
        reg.takeSeat id conn = (.ok change.entered, (reg.changeSeat id conn).2)) ∧
      (∀ p, reg.joined? conn = some p → p ≠ id → ∃ left, change.left = some left ∧
        (reg.leaveSeat p conn).1 = .ok left ∧
        (reg.leaveSeat p conn).2.takeSeat id conn =
          (.ok change.entered, (reg.changeSeat id conn).2)) ∧
      (reg.changeSeat id conn).2.changeSeat id conn =
        (.ok ⟨change.entered, none⟩, (reg.changeSeat id conn).2) ∧
      ∀ room, reg.joined? conn = none → reg.room? id = some room → conn ∉ room.players →
        (reg.changeSeat id conn).2.leaveSeat id conn = (.ok room, reg) := by
  have hwf := h.wellFormed
  refine ⟨fun e => changeSeat_eq_error_iff, fun e he => changeSeat_of_error he,
    fun change hok => ?_⟩
  obtain ⟨room, hroom, hadmits⟩ : ∃ room, reg.room? id = some room ∧ Admits room conn := by
    rcases hwf.changeSeat_cases id conn with ⟨e, heq⟩ | ⟨room, hroom, hadmits, -⟩
    · rw [heq] at hok
      cases hok
    · exact ⟨room, hroom, hadmits⟩
  have hentered : change.entered = room.seat conn := by
    obtain ⟨left, hok'⟩ := changeSeat_of_admits hroom hadmits
    rw [hok] at hok'
    cases hok'
    rfl
  rw [hentered]
  refine ⟨fun hjoined => ?_, fun p hj hne => ?_, hwf.changeSeat_changeSeat hroom hadmits, ?_⟩
  · obtain ⟨hanswer, hsame⟩ := hwf.changeSeat_eq_takeSeat hjoined hroom hadmits
    rw [hok] at hanswer
    cases hanswer
    exact ⟨rfl, Prod.ext (takeSeat_of_admits hroom hadmits) hsame⟩
  · obtain ⟨left, hleft, hanswer, hsame⟩ :=
      hwf.changeSeat_eq_leaveSeat_takeSeat hj hne hroom hadmits
    rw [hok] at hanswer
    cases hanswer
    exact ⟨left, rfl, hleft, hsame⟩
  · intro before hj hbefore hnew
    rw [hroom] at hbefore
    cases hbefore
    exact hwf.leaveSeat_changeSeat hj hroom hnew hadmits

/-- The visitor of `visit` goes back to its own room. That comes to leaving the host and taking the
seat that it has, and the host is the one to be told. -/
theorem changeSeat_eq_leaveSeat_then_takeSeat_visit :
    ReachedBy (fun _ _ => True) (visit.foldl Call.apply .empty) ∧
      (visit.foldl Call.apply .empty).joined? ⟨2⟩ = some ⟨1⟩ ∧
      ∃ own host, ((visit.foldl Call.apply .empty).changeSeat ⟨2⟩ ⟨2⟩).1 = .ok ⟨own, some host⟩ ∧
        own.players = [⟨2⟩] ∧ host.players = [⟨1⟩] ∧
        ((visit.foldl Call.apply .empty).leaveSeat ⟨1⟩ ⟨2⟩).1 = .ok host ∧
        ((visit.foldl Call.apply .empty).leaveSeat ⟨1⟩ ⟨2⟩).2.takeSeat ⟨2⟩ ⟨2⟩ =
          (.ok own, ((visit.foldl Call.apply .empty).changeSeat ⟨2⟩ ⟨2⟩).2) := by
  have h : ReachedBy (fun _ _ => True) (visit.foldl Call.apply .empty) :=
    (((((ReachedBy.empty.call (.logIn ⟨1⟩ [0x41] ⟨1⟩) (by decide) trivial trivial).call
      (.logIn ⟨2⟩ [0x42] ⟨2⟩) (by decide) trivial trivial).call
      (.openRoom ⟨1⟩ ⟨1⟩ plainSettings) (by decide) trivial trivial).call
      (.openRoom ⟨2⟩ ⟨2⟩ plainSettings) (by decide) trivial trivial).call
      (.changeSeat ⟨1⟩ ⟨2⟩) (by decide) trivial trivial)
  obtain ⟨-, -, hmove⟩ := changeSeat_eq_leaveSeat_then_takeSeat h ⟨2⟩ ⟨2⟩
  obtain ⟨-, hback, -, -⟩ := hmove _ rfl
  obtain ⟨host, hhost, hleft, hsame⟩ := hback ⟨1⟩ rfl (by decide)
  cases hhost
  exact ⟨h, rfl, _, _, rfl, rfl, rfl, hleft, hsame⟩

end Registry

end GameLobby
