import GameLobby.Proofs.Registry.Effects

/-!
# Calls keep registries well-formed

Every call keeps a registry well-formed, by whomever it is made, as long as the numbers of rooms
have not run out and rooms are edited in their listings only (`WellFormed.apply`).
`Registry.ReachedBy` are the registries that calls of some kind lead to from the empty one.

Main statement: `tables_agree`, about the registries that calls by anybody lead to.
-/

namespace GameLobby

/-! ## Orderly changes of a room -/

/-- A change of a room that leaves its number and owner alone, keeps the owner's seat the first and
gives nobody a second seat. -/
structure Room.Orderly (g : Room → Room) : Prop where
  id_eq : ∀ r, (g r).id = r.id
  owner_eq : ∀ r, (g r).owner = r.owner
  ownerUid_eq : ∀ r, (g r).ownerUid = r.ownerUid
  owner_first : ∀ r, r.players.head? = some r.owner → (g r).players.head? = some r.owner
  nodup : ∀ r, r.players.Nodup → (g r).players.Nodup

namespace Room.Orderly

theorem id : Orderly fun r => r :=
  ⟨fun _ => rfl, fun _ => rfl, fun _ => rfl, fun _ h => h, fun _ h => h⟩

theorem seat (conn : ConnectionId) : Orderly (Room.seat conn) :=
  ⟨id_seat conn, owner_seat conn, ownerUid_seat conn, fun _ h => head?_players_seat h,
    fun _ h => nodup_players_seat h⟩

theorem unseat (conn : ConnectionId) : Orderly (Room.unseat conn) :=
  ⟨id_unseat conn, owner_unseat conn, ownerUid_unseat conn, fun _ h => head?_players_unseat h,
    fun _ h => nodup_players_unseat h⟩

theorem relist (edit : Listing → Listing) : Orderly (Room.relist edit) :=
  ⟨fun _ => rfl, fun _ => rfl, fun _ => rfl, fun _ h => h, fun _ h => h⟩

theorem ite {p : Room → Prop} [DecidablePred p] {g g' : Room → Room} (hg : Orderly g)
    (hg' : Orderly g') : Orderly fun r => if p r then g r else g' r where
  id_eq r := by
    split
    · exact hg.id_eq r
    · exact hg'.id_eq r
  owner_eq r := by
    split
    · exact hg.owner_eq r
    · exact hg'.owner_eq r
  ownerUid_eq r := by
    split
    · exact hg.ownerUid_eq r
    · exact hg'.ownerUid_eq r
  owner_first r h := by
    split
    · exact hg.owner_first r h
    · exact hg'.owner_first r h
  nodup r h := by
    split
    · exact hg.nodup r h
    · exact hg'.nodup r h

end Room.Orderly

namespace Registry

/-! ## Numbers -/

/-- Fewer than 2^32 - 1 users and as few rooms have a number. The counters start at 0 and each new
number adds one, so up to here they count the numbers given. -/
def NumbersLeft (reg : Registry) : Prop :=
  reg.lastUid.toNat < UInt32.size - 1 ∧ reg.lastRoomId.toNat < UInt32.size - 1

instance (reg : Registry) : Decidable reg.NumbersLeft :=
  inferInstanceAs (Decidable (_ ∧ _))

/-- A counter that has not run out counts on. -/
theorem toNat_next {n : UInt32} (h : n.toNat < UInt32.size - 1) : (n + 1).toNat = n.toNat + 1 := by
  have hlt : n.toNat < 4294967295 := h
  rw [UInt32.toNat_add]
  show (n.toNat + 1) % 4294967296 = _
  omega

theorem NumbersLeft.toNat_nextRoomId {reg : Registry} (h : reg.NumbersLeft) :
    (reg.lastRoomId + 1).toNat = reg.lastRoomId.toNat + 1 :=
  toNat_next h.2

/-! ## Preservation -/

namespace WellFormed

variable {reg reg' : Registry}

/-- A change in place of accounts and rooms, if the rooms that accounts then note as joined are
there and have a seat for them. -/
theorem edited (h : reg.WellFormed) {f : ConnectionId → Account → Account} {g : Room → Room}
    (he : reg.Edited reg' f g) (hf : ∀ c a, (f c a).conn = a.conn) (hg : Room.Orderly g)
    (hjoin : ∀ {c a id}, reg.account? c = some a → (f c a).joinedRoom = some id →
      ∃ r, reg.room? id = some r ∧ c ∈ (g r).players ∧ r.owner ≠ c) : reg'.WellFormed where
  toFiled := he.filed hf hg.id_eq hg.owner_eq h.toFiled
  owner_first {o r} hr := by
    rw [he.roomOf?_eq] at hr
    obtain ⟨s, hs, rfl⟩ := Option.map_eq_some_iff.mp hr
    have howner := h.owner_eq hs
    exact howner ▸ hg.owner_first s (howner.symm ▸ h.owner_first hs)
  players_nodup {o r} hr := by
    rw [he.roomOf?_eq] at hr
    obtain ⟨s, hs, rfl⟩ := Option.map_eq_some_iff.mp hr
    exact hg.nodup s (h.players_nodup hs)
  id_le {o r} hr := by
    rw [he.roomOf?_eq] at hr
    obtain ⟨s, hs, rfl⟩ := Option.map_eq_some_iff.mp hr
    rw [hg.id_eq, he.lastRoomId_eq]
    exact h.id_le hs
  joined_seat {c a id} ha hj := by
    rw [he.account?_eq] at ha
    obtain ⟨b, hb, rfl⟩ := Option.map_eq_some_iff.mp ha
    obtain ⟨r, hr, hc, hne⟩ := hjoin hb hj
    exact ⟨g r, by rw [he.room?_eq, hr]; rfl, hc, (hg.owner_eq r).symm ▸ hne⟩

theorem withoutAccount (h : reg.WellFormed) (conn : ConnectionId) :
    (reg.withoutAccount conn).WellFormed where
  toFiled := withoutAccount_filed h.toFiled conn
  owner_first := h.owner_first
  players_nodup := h.players_nodup
  id_le := h.id_le
  joined_seat {c a id} ha hj := by
    rw [account?_withoutAccount] at ha
    split at ha
    · exact nomatch ha
    · exact h.joined_seat ha hj

theorem closeRoom (h : reg.WellFormed) (conn : ConnectionId) :
    (reg.closeRoom conn).2.WellFormed := by
  have hlast : (reg.closeRoom conn).2.lastRoomId = reg.lastRoomId := lastRoomId_closeRoom
  have hsub : ∀ {o r}, (reg.closeRoom conn).2.roomOf? o = some r → reg.roomOf? o = some r := by
    intro o r hr
    rw [roomOf?_closeRoom] at hr
    split at hr
    · exact nomatch hr
    · exact hr
  refine ⟨closeRoom_filed h.toFiled conn, fun hr => h.owner_first (hsub hr),
    fun hr => h.players_nodup (hsub hr), fun hr => hlast ▸ h.id_le (hsub hr),
    fun {c a id} ha hj => ?_⟩
  rw [account?_closeRoom] at ha
  obtain ⟨b, hb, rfl⟩ := Option.map_eq_some_iff.mp ha
  -- who noted the room that went was a player of it, and has forgotten it
  have hkeep : b.joinedRoom = some id ∧ (reg.roomOf? conn).map (·.id) ≠ some id := by
    cases hroom : reg.roomOf? conn with
    | none =>
      rw [hroom] at hj
      exact ⟨hj, nofun⟩
    | some room =>
      simp only [hroom, forget] at hj
      split at hj
      · exact nomatch hj
      · rename_i hnot
        refine ⟨hj, fun hid => hnot ?_⟩
        obtain rfl : room.id = id := Option.some.inj hid
        obtain ⟨r, hr, hc, _⟩ := h.joined_seat hb hj
        rw [h.room?_of_roomOf? hroom, Option.some.injEq] at hr
        exact ⟨hr ▸ hc, hj⟩
  obtain ⟨r, hr, hc, hne⟩ := h.joined_seat hb hkeep.1
  exact ⟨r, by rw [room?_closeRoom h.toFiled, if_neg hkeep.2]; exact hr, hc, hne⟩

theorem logIn (h : reg.WellFormed) (conn : ConnectionId) (name : RawText)
    (outbox : ConnectionId) : (reg.logIn conn name outbox).2.WellFormed := by
  rcases logIn_cases reg conn name outbox with ⟨e, heq⟩ | ⟨_, heq⟩
  · rw [heq]
    exact h
  have hacc : ∀ c, (reg.logIn conn name outbox).2.account? c =
      if c = conn then some (reg.newcomer conn name outbox) else reg.account? c := by
    intro c
    rw [heq]
    exact Table.get?_insert _ _ _ _
  have hroom? : ∀ id, (reg.logIn conn name outbox).2.room? id = reg.room? id := by
    intro id
    rw [heq]
    rfl
  rw [heq] at hacc hroom? ⊢
  refine ⟨⟨fun {c a} ha => ?_, h.owner_eq, h.owners_iff⟩, h.owner_first, h.players_nodup, h.id_le,
    fun {c a id} ha hj => ?_⟩
  · rw [hacc] at ha
    split at ha
    · rename_i hc
      rw [hc, ← Option.some.inj ha]
      rfl
    · exact h.conn_eq ha
  · rw [hacc] at ha
    split at ha
    · rw [← Option.some.inj ha] at hj
      exact nomatch hj
    · exact (hroom? id) ▸ h.joined_seat ha hj

/-- A room that is offered anew has a number that no room has. -/
theorem id_ne_next (h : reg.WellFormed) (hn : reg.NumbersLeft) {o : ConnectionId} {r : Room}
    (hr : reg.roomOf? o = some r) : r.id ≠ ⟨reg.lastRoomId + 1⟩ := by
  intro hid
  have hle := UInt32.le_iff_toNat_le.mp (h.id_le hr)
  rw [hid, hn.toNat_nextRoomId] at hle
  omega

/-- The room that a connection without one offers. -/
theorem roomOf?_openRoom (conn : ConnectionId) (ownerUid : UserId) (settings : RoomSettings)
    (hnone : reg.roomOf? conn = none) (o : ConnectionId) :
    (reg.openRoom conn ownerUid settings).2.roomOf? o =
      if o = conn then some (.opened ⟨reg.lastRoomId + 1⟩ conn ownerUid settings)
      else reg.roomOf? o := by
  rcases openRoom_cases reg conn ownerUid settings with ⟨e, heq⟩ | ⟨_, heq⟩
  · have hin : ¬ reg.rooms.contains conn := by
      rw [contains_rooms_iff]
      rintro ⟨r, hr⟩
      exact nomatch hnone.symm.trans hr
    unfold Registry.openRoom at heq
    rw [if_neg hin] at heq
    exact nomatch congrArg Prod.fst heq
  · rw [heq]
    exact Table.get?_insert _ _ _ _

theorem room?_openRoom (h : reg.WellFormed) (conn : ConnectionId) (ownerUid : UserId)
    (settings : RoomSettings) (hnone : reg.roomOf? conn = none) (id : RoomId) :
    (reg.openRoom conn ownerUid settings).2.room? id =
      if id = ⟨reg.lastRoomId + 1⟩ then
        some (.opened ⟨reg.lastRoomId + 1⟩ conn ownerUid settings)
      else reg.room? id := by
  have hrooms := roomOf?_openRoom conn ownerUid settings hnone
  have howners : (reg.openRoom conn ownerUid settings).2.owners =
      reg.owners.insert ⟨reg.lastRoomId + 1⟩ conn := by
    rcases openRoom_cases reg conn ownerUid settings with ⟨e, heq⟩ | ⟨_, heq⟩
    · have hopen := hrooms conn
      rw [heq, if_pos rfl, hnone] at hopen
      cases hopen
    · rw [heq]
  ext r
  rw [room?_eq_some, howners]
  simp only [Table.get?_insert, hrooms]
  by_cases hid : id = ⟨reg.lastRoomId + 1⟩
  · simp [hid]
  · simp only [if_neg hid, room?_eq_some]
    refine exists_congr fun o => and_congr_right fun ho => ?_
    have hne : o ≠ conn := by
      rintro rfl
      obtain ⟨r', hr', _⟩ := h.owners_iff.mp ho
      cases hnone.symm.trans hr'
    rw [if_neg hne]

theorem openRoom (h : reg.WellFormed) (hn : reg.NumbersLeft) (conn : ConnectionId)
    (ownerUid : UserId) (settings : RoomSettings) :
    (reg.openRoom conn ownerUid settings).2.WellFormed := by
  rcases openRoom_cases reg conn ownerUid settings with ⟨e, heq⟩ | ⟨hnone, heq⟩
  · rw [heq]
    exact h
  have hrooms := roomOf?_openRoom conn ownerUid settings hnone
  have hlook := h.room?_openRoom conn ownerUid settings hnone
  -- every room is the new one or was there before
  have hcases : ∀ {o r}, (reg.openRoom conn ownerUid settings).2.roomOf? o = some r →
      (o = conn ∧ r = .opened ⟨reg.lastRoomId + 1⟩ conn ownerUid settings) ∨
        (o ≠ conn ∧ reg.roomOf? o = some r) := by
    intro o r hr
    rw [hrooms] at hr
    split at hr
    · exact .inl ⟨‹_›, (Option.some.inj hr).symm⟩
    · exact .inr ⟨‹_›, hr⟩
  rw [heq] at hrooms hlook hcases ⊢
  refine ⟨⟨h.conn_eq, fun hr => ?_, fun {id o} => ?_⟩, fun hr => ?_, fun hr => ?_, fun hr => ?_,
    fun ha hj => ?_⟩
  · rcases hcases hr with ⟨rfl, rfl⟩ | ⟨_, hr⟩
    · rfl
    · exact h.owner_eq hr
  · dsimp only
    rw [Table.get?_insert, hrooms]
    by_cases hid : id = ⟨reg.lastRoomId + 1⟩
    · rw [if_pos hid, Option.some.injEq]
      constructor
      · rintro rfl
        exact ⟨_, if_pos rfl, hid.symm⟩
      · rintro ⟨r, hr, hrid⟩
        by_cases ho : o = conn
        · rw [ho]
        · rw [if_neg ho] at hr
          exact absurd (hrid.trans hid) (h.id_ne_next hn hr)
    · rw [if_neg hid, h.owners_iff]
      by_cases ho : o = conn
      · rw [if_pos ho, ho, hnone]
        constructor
        · rintro ⟨r, hr, _⟩
          exact nomatch hr
        · rintro ⟨r, hr, hrid⟩
          rw [← Option.some.inj hr] at hrid
          exact absurd hrid.symm hid
      · rw [if_neg ho]
  · rcases hcases hr with ⟨rfl, rfl⟩ | ⟨_, hr⟩
    · rfl
    · exact h.owner_first hr
  · rcases hcases hr with ⟨_, rfl⟩ | ⟨_, hr⟩
    · exact List.nodup_cons.mpr ⟨List.not_mem_nil, List.nodup_nil⟩
    · exact h.players_nodup hr
  · rw [UInt32.le_iff_toNat_le]
    show _ ≤ (reg.lastRoomId + 1).toNat
    rcases hcases hr with ⟨_, rfl⟩ | ⟨_, hr⟩
    · exact Nat.le_refl _
    · rw [hn.toNat_nextRoomId]
      exact Nat.le_succ_of_le (UInt32.le_iff_toNat_le.mp (h.id_le hr))
  · obtain ⟨r, hr, hc, hne⟩ := h.joined_seat ha hj
    have hid := h.id_ne_next hn (h.roomOf?_owner hr)
    rw [h.id_of_room? hr] at hid
    exact ⟨r, by rw [hlook, if_neg hid]; exact hr, hc, hne⟩

theorem setSubscription (h : reg.WellFormed) (conn : ConnectionId) (t : Topic) (on : Bool) :
    (reg.setSubscription conn t on).2.WellFormed := by
  refine h.edited (setSubscription_edited reg conn t on) (fun c a => ?_) .id
    fun {c a id} ha hj => ?_
  · split <;> rfl
  · have hsame : a.joinedRoom = some id := by
      split at hj <;> exact hj
    exact h.joined_seat ha hsame

theorem editRoom (h : reg.WellFormed) (conn : ConnectionId) (edit : Listing → Listing) :
    (reg.editRoom conn edit).2.WellFormed := by
  refine h.edited (h.updateRoom_edited conn _) (fun _ _ => rfl) (.ite (.relist edit) .id)
    fun {c a id} ha hj => ?_
  obtain ⟨r, hr, hc, hne⟩ := h.joined_seat ha hj
  refine ⟨r, hr, ?_, hne⟩
  split <;> exact hc

theorem takeSeat (h : reg.WellFormed) (id : RoomId) (conn : ConnectionId) :
    (reg.takeSeat id conn).2.WellFormed := by
  rcases h.takeSeat_cases id conn with ⟨e, heq⟩ | ⟨room, hroom, _, _, he⟩
  · rw [heq]
    exact h
  refine h.edited he (fun c a => ?_) (.ite (.seat conn) .id) fun {c a j} ha hj => ?_
  · split <;> rfl
  · split at hj
    · -- the newcomer notes the room in which it now has a seat
      rename_i hc
      obtain rfl : id = j := Option.some.inj hj
      refine ⟨room, hroom, ?_, hc.1 ▸ hc.2⟩
      rw [if_pos (h.id_of_room? hroom), Room.mem_players_seat]
      exact .inr hc.1
    · obtain ⟨r, hr, hc, hne⟩ := h.joined_seat ha hj
      refine ⟨r, hr, ?_, hne⟩
      split
      · exact Room.mem_players_seat.mpr (.inl hc)
      · exact hc

theorem changeSeat (h : reg.WellFormed) (id : RoomId) (conn : ConnectionId) :
    (reg.changeSeat id conn).2.WellFormed := by
  rcases h.changeSeat_cases id conn with ⟨e, heq⟩ | ⟨room, hroom, _, _, he⟩
  · rw [heq]
    exact h
  refine h.edited he (fun c a => ?_) (.ite (.seat conn) (.ite (.unseat conn) .id))
    fun {c a j} ha hj => ?_
  · split <;> rfl
  · by_cases hc : c = conn
    · rw [if_pos hc] at hj
      by_cases howner : room.owner = conn
      · simp [howner] at hj
      · obtain rfl : id = j := by simpa [howner] using hj
        refine ⟨room, hroom, ?_, hc ▸ howner⟩
        rw [if_pos (h.id_of_room? hroom), Room.mem_players_seat]
        exact .inr hc
    · rw [if_neg hc] at hj
      obtain ⟨r, hr, hmem, hne⟩ := h.joined_seat ha hj
      refine ⟨r, hr, ?_, hne⟩
      split
      · exact Room.mem_players_seat.mpr (.inl hmem)
      · split
        · exact Room.mem_players_unseat.mpr ⟨hmem, .inl hc⟩
        · exact hmem

theorem leaveSeat (h : reg.WellFormed) (id : RoomId) (conn : ConnectionId) :
    (reg.leaveSeat id conn).2.WellFormed := by
  rcases h.leaveSeat_cases id conn with ⟨e, heq⟩ | ⟨room, hroom, _, _, _, he⟩
  · rw [heq]
    exact h
  refine h.edited he (fun c a => ?_) (.ite (.unseat conn) .id) fun {c a j} ha hj => ?_
  · split <;> rfl
  · split at hj
    · exact nomatch hj
    · rename_i hkeep
      obtain ⟨r, hr, hmem, hne⟩ := h.joined_seat ha hj
      refine ⟨r, hr, ?_, hne⟩
      split
      · rename_i hid
        have hc : c ≠ conn := fun hc =>
          hkeep ⟨hc, hj.trans (congrArg some ((h.id_of_room? hr).symm.trans hid))⟩
        exact Room.mem_players_unseat.mpr ⟨hmem, .inl hc⟩
      · exact hmem

theorem logOut (h : reg.WellFormed) (conn : ConnectionId) : (reg.logOut conn).2.WellFormed := by
  rcases logOut_cases reg conn with ⟨_, heq⟩ | ⟨a, ha, _, _⟩
  · rw [heq]
    exact h
  have hclosed := (h.withoutAccount conn).closeRoom conn
  refine hclosed.edited (logOut_edited h.toFiled ha) (fun _ _ => rfl) (.ite (.unseat conn) .id)
    fun {c b id} hb hj => ?_
  obtain ⟨r, hr, hmem, hne⟩ := hclosed.joined_seat hb hj
  refine ⟨r, hr, ?_, hne⟩
  split
  · -- the account that leaves is gone already
    have hc : c ≠ conn := by
      rintro rfl
      rw [account?_closeRoom, account?_withoutAccount, if_pos rfl] at hb
      exact nomatch hb
    exact Room.mem_players_unseat.mpr ⟨hmem, .inl hc⟩
  · exact hmem

/-- **Preservation.** Any call by anybody keeps a registry well-formed, if it edits no more of a
room than its listing. -/
theorem apply (h : reg.WellFormed) (hn : reg.NumbersLeft) {call : Call} (hrelists : call.Relists) :
    (call.apply reg).WellFormed := by
  cases call with
  | logIn conn name outbox => exact h.logIn conn name outbox
  | logOut conn => exact h.logOut conn
  | setSubscription conn t on => exact h.setSubscription conn t on
  | openRoom conn ownerUid settings => exact h.openRoom hn conn ownerUid settings
  | closeRoom conn => exact h.closeRoom conn
  | updateRoom conn edit =>
    obtain ⟨relisting, rfl⟩ := hrelists
    exact h.editRoom conn relisting
  | takeSeat id conn => exact h.takeSeat id conn
  | changeSeat id conn => exact h.changeSeat id conn
  | leaveSeat id conn => exact h.leaveSeat id conn

end WellFormed

/-! ## Runs of calls -/

/-- The registries that calls lead to from the empty one, in any order and by anybody, each of them
allowed in the registry it finds, while there are numbers left. Rooms are edited in their listings
only: their numbers, owners and players are as the registry has made them. -/
inductive ReachedBy (allowed : Registry → Call → Prop) : Registry → Prop where
  | empty : ReachedBy allowed .empty
  | call {reg : Registry} (call : Call) (h : ReachedBy allowed reg) (hn : reg.NumbersLeft)
      (hrelists : call.Relists) (hc : allowed reg call) : ReachedBy allowed (call.apply reg)

theorem ReachedBy.wellFormed {allowed : Registry → Call → Prop} {reg : Registry}
    (h : ReachedBy allowed reg) : reg.WellFormed := by
  induction h with
  | empty => exact wellFormed_empty
  | call call _ hn hrelists _ ih => exact ih.apply hn hrelists

/-- **Tables agree.** In a registry that calls by anybody lead to, logged in or not, a room number
leads to a connection exactly if the room of that connection has the number. Rooms are filed under
their owners, who have the first of the seats, and nobody has two seats in one room. The room that
an account notes as joined exists, belongs to somebody else and has a seat for it. -/
theorem tables_agree {reg : Registry} (h : ReachedBy (fun _ _ => True) reg) :
    (∀ id c, reg.owners.get? id = some c ↔ ∃ r, reg.roomOf? c = some r ∧ r.id = id) ∧
    (∀ c r, reg.roomOf? c = some r →
      r.owner = c ∧ r.players.head? = some r.owner ∧ r.players.Nodup) ∧
    ∀ c a id, reg.account? c = some a → a.joinedRoom = some id →
      ∃ r, reg.room? id = some r ∧ r.id = id ∧ a.conn ∈ r.players ∧ r.owner ≠ a.conn := by
  have hwf := h.wellFormed
  refine ⟨fun id c => hwf.owners_iff, fun c r hr => ?_, fun c a id ha hj => ?_⟩
  · have howner := hwf.owner_eq hr
    exact ⟨howner, howner.symm ▸ hwf.owner_first hr, hwf.players_nodup hr⟩
  · obtain ⟨r, hr, hseat, hne⟩ := hwf.joined_seat ha hj
    exact ⟨r, hr, hwf.id_of_room? hr, hwf.conn_eq ha ▸ hseat, hwf.conn_eq ha ▸ hne⟩

/-- Settings of a room with four places. -/
def plainSettings : RoomSettings :=
  ⟨[0x52], [], [], 5479, 0, 0, [], 4, 0, 0, 0, false, [], false, []⟩

/-- Somebody who is not logged in offers two rooms, one after the other. A guest takes a seat in the
first and loses it with the room, then in the second, in which a stranger has a seat too. -/
def strangers : List Call :=
  [.openRoom ⟨1⟩ ⟨9⟩ plainSettings, .logIn ⟨2⟩ [0x41] ⟨2⟩, .takeSeat ⟨1⟩ ⟨2⟩, .closeRoom ⟨1⟩,
    .openRoom ⟨1⟩ ⟨9⟩ plainSettings, .takeSeat ⟨2⟩ ⟨3⟩, .takeSeat ⟨2⟩ ⟨2⟩]

/-- The guest notes the second room and has the last of its three seats. -/
theorem strangers_agree :
    ReachedBy (fun _ _ => True) (strangers.foldl Call.apply .empty) ∧
      (∃ a, (strangers.foldl Call.apply .empty).account? ⟨2⟩ = some a ∧
        a.joinedRoom = some ⟨2⟩ ∧ a.conn = ⟨2⟩) ∧
      ∃ r, (strangers.foldl Call.apply .empty).room? ⟨2⟩ = some r ∧
        r.players = [⟨1⟩, ⟨3⟩, ⟨2⟩] ∧ r.owner ≠ ⟨2⟩ ∧
        (strangers.foldl Call.apply .empty).owners.get? r.id = some r.owner := by
  have h : ReachedBy (fun _ _ => True) (strangers.foldl Call.apply .empty) :=
    (((((((ReachedBy.empty.call (.openRoom ⟨1⟩ ⟨9⟩ plainSettings) (by decide) trivial trivial).call
      (.logIn ⟨2⟩ [0x41] ⟨2⟩) (by decide) trivial trivial).call
      (.takeSeat ⟨1⟩ ⟨2⟩) (by decide) trivial trivial).call
      (.closeRoom ⟨1⟩) (by decide) trivial trivial).call
      (.openRoom ⟨1⟩ ⟨9⟩ plainSettings) (by decide) trivial trivial).call
      (.takeSeat ⟨2⟩ ⟨3⟩) (by decide) trivial trivial).call
      (.takeSeat ⟨2⟩ ⟨2⟩) (by decide) trivial trivial)
  obtain ⟨hindex, -, hjoined⟩ := tables_agree h
  obtain ⟨r, hr, -, -, howner⟩ := hjoined ⟨2⟩ _ ⟨2⟩ rfl rfl
  cases hr
  exact ⟨h, ⟨_, rfl, rfl, rfl⟩, _, rfl, rfl, howner, (hindex _ _).mpr ⟨_, rfl, rfl⟩⟩

end Registry

end GameLobby
