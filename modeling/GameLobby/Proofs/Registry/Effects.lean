import GameLobby.Proofs.Registry.WellFormed

/-!
# What registry calls do

`Registry.Call` is one public operation with its arguments, and `Call.apply` the registry after it.
What a call does is said once for each operation, by what accounts and rooms look like afterwards:
`Registry.Edited` for operations that change accounts and rooms in place, and lemmas `account?_…`
and `roomOf?_…` for those that add or remove some. An operation that fails leaves the registry as it
is.
-/

namespace GameLobby

namespace Registry

/-! ## Calls -/

/-- A public operation and its arguments. -/
inductive Call where
  | logIn (conn : ConnectionId) (name : RawText) (outbox : ConnectionId)
  | logOut (conn : ConnectionId)
  | setSubscription (conn : ConnectionId) (t : Topic) (on : Bool)
  | openRoom (conn : ConnectionId) (ownerUid : UserId) (settings : RoomSettings)
  | closeRoom (conn : ConnectionId)
  | updateRoom (conn : ConnectionId) (edit : Room → Room)
  | takeSeat (id : RoomId) (conn : ConnectionId)
  | changeSeat (id : RoomId) (conn : ConnectionId)
  | leaveSeat (id : RoomId) (conn : ConnectionId)

namespace Call

/-- The connection on whose behalf a call is made. -/
def conn : Call → ConnectionId
  | .logIn conn .. | .logOut conn | .setSubscription conn .. | .openRoom conn .. | .closeRoom conn
  | .updateRoom conn _ | .takeSeat _ conn | .changeSeat _ conn | .leaveSeat _ conn => conn

/-- The registry after a call. -/
def apply (reg : Registry) : Call → Registry
  | .logIn conn name outbox => (reg.logIn conn name outbox).2
  | .logOut conn => (reg.logOut conn).2
  | .setSubscription conn t on => (reg.setSubscription conn t on).2
  | .openRoom conn ownerUid settings => (reg.openRoom conn ownerUid settings).2
  | .closeRoom conn => (reg.closeRoom conn).2
  | .updateRoom conn edit => (reg.updateRoom conn edit).2
  | .takeSeat id conn => (reg.takeSeat id conn).2
  | .changeSeat id conn => (reg.changeSeat id conn).2
  | .leaveSeat id conn => (reg.leaveSeat id conn).2

/-- An edit of a listing, as sessions make them. -/
def editRoom (conn : ConnectionId) (edit : Listing → Listing) : Call :=
  .updateRoom conn (.relist edit)

@[simp] theorem apply_editRoom (reg : Registry) (conn : ConnectionId)
    (edit : Listing → Listing) : (editRoom conn edit).apply reg = (reg.editRoom conn edit).2 :=
  rfl

/-- If the call edits a room, then only its settings, whether a game is running in it, and its
property mask. -/
def Relists : Call → Prop
  | .updateRoom _ edit => ∃ relisting, edit = Room.relist relisting
  | _ => True

@[simp] theorem relists_editRoom (conn : ConnectionId) (edit : Listing → Listing) :
    (editRoom conn edit).Relists :=
  ⟨edit, rfl⟩

/-- If the call edits a room, then not its number. -/
def KeepsId : Call → Prop
  | .updateRoom _ edit => ∀ r, (edit r).id = r.id
  | _ => True

theorem Relists.keepsId {call : Call} (h : call.Relists) : call.KeepsId := by
  cases call with
  | updateRoom conn edit =>
    obtain ⟨relisting, rfl⟩ := h
    exact fun _ => rfl
  | _ => trivial

end Call

/-! ## Changes in place -/

/-- `reg'` is `reg` with `f` applied to the accounts and `g` to the rooms. -/
structure Edited (reg reg' : Registry) (f : ConnectionId → Account → Account) (g : Room → Room) :
    Prop where
  owners_eq : reg'.owners = reg.owners
  lastUid_eq : reg'.lastUid = reg.lastUid
  lastRoomId_eq : reg'.lastRoomId = reg.lastRoomId
  account?_eq : ∀ c, reg'.account? c = (reg.account? c).map (f c)
  roomOf?_eq : ∀ o, reg'.roomOf? o = (reg.roomOf? o).map g

namespace Edited

variable {reg reg' reg'' : Registry} {f f' : ConnectionId → Account → Account}
  {g g' : Room → Room}

theorem refl (reg : Registry) : reg.Edited reg (fun _ a => a) (fun r => r) :=
  ⟨rfl, rfl, rfl, fun _ => Option.map_id'.symm, fun _ => Option.map_id'.symm⟩

theorem trans (h : reg.Edited reg' f g) (h' : reg'.Edited reg'' f' g') :
    reg.Edited reg'' (fun c a => f' c (f c a)) (fun r => g' (g r)) where
  owners_eq := h'.owners_eq.trans h.owners_eq
  lastUid_eq := h'.lastUid_eq.trans h.lastUid_eq
  lastRoomId_eq := h'.lastRoomId_eq.trans h.lastRoomId_eq
  account?_eq c := by rw [h'.account?_eq, h.account?_eq, Option.map_map]; rfl
  roomOf?_eq o := by rw [h'.roomOf?_eq, h.roomOf?_eq, Option.map_map]; rfl

/-- What the functions do to accounts and rooms that are not there does not matter. -/
theorem congr (h : reg.Edited reg' f g)
    (hf : ∀ c a, reg.account? c = some a → f c a = f' c a)
    (hg : ∀ o r, reg.roomOf? o = some r → g r = g' r) : reg.Edited reg' f' g' where
  owners_eq := h.owners_eq
  lastUid_eq := h.lastUid_eq
  lastRoomId_eq := h.lastRoomId_eq
  account?_eq c := by
    rw [h.account?_eq]
    exact Option.map_congr fun a ha => hf c a ha
  roomOf?_eq o := by
    rw [h.roomOf?_eq]
    exact Option.map_congr fun r hr => hg o r hr

theorem room?_eq (h : reg.Edited reg' f g) (id : RoomId) :
    reg'.room? id = (reg.room? id).map g := by
  unfold room?
  rw [h.owners_eq, Option.map_bind]
  exact congrArg _ (funext h.roomOf?_eq)

/-- Accounts and rooms that keep their keys stay filed under them. -/
theorem filed (h : reg.Edited reg' f g) (hf : ∀ c a, (f c a).conn = a.conn)
    (hid : ∀ r, (g r).id = r.id) (howner : ∀ r, (g r).owner = r.owner) (hreg : reg.Filed) :
    reg'.Filed where
  conn_eq {c a} ha := by
    rw [h.account?_eq] at ha
    obtain ⟨b, hb, rfl⟩ := Option.map_eq_some_iff.mp ha
    rw [hf, hreg.conn_eq hb]
  owner_eq {o r} hr := by
    rw [h.roomOf?_eq] at hr
    obtain ⟨s, hs, rfl⟩ := Option.map_eq_some_iff.mp hr
    rw [howner, hreg.owner_eq hs]
  owners_iff {id o} := by
    rw [h.owners_eq, hreg.owners_iff, h.roomOf?_eq]
    constructor
    · rintro ⟨r, hr, hrid⟩
      exact ⟨g r, by rw [hr]; rfl, (hid r).trans hrid⟩
    · rintro ⟨r, hr, hrid⟩
      obtain ⟨s, hs, rfl⟩ := Option.map_eq_some_iff.mp hr
      exact ⟨s, hs, (hid s).symm.trans hrid⟩

end Edited

theorem edited_modifyAccount (reg : Registry) (conn : ConnectionId) (f : Account → Account) :
    reg.Edited (reg.modifyAccount conn f) (fun c a => if c = conn then f a else a)
      (fun r => r) where
  owners_eq := rfl
  lastUid_eq := rfl
  lastRoomId_eq := rfl
  account?_eq c := account?_modifyAccount reg conn c f
  roomOf?_eq _ := Option.map_id'.symm

/-- A change of the room with a number changes that room and no other. -/
theorem Filed.edited_modifyRoomAt {reg : Registry} (h : reg.Filed) (id : RoomId)
    (g : Room → Room) :
    reg.Edited (reg.modifyRoomAt id g) (fun _ a => a) (fun r => if r.id = id then g r else r) := by
  refine ⟨owners_modifyRoomAt .., lastUid_modifyRoomAt .., lastRoomId_modifyRoomAt ..,
    fun c => ?_, fun o => ?_⟩
  · rw [account?_modifyRoomAt, Option.map_id']
  · rw [roomOf?_modifyRoomAt]
    refine Option.map_congr fun r hr => ?_
    have hid : reg.owners.get? id = some o ↔ r.id = id :=
      h.owners_iff.trans ⟨fun ⟨s, hs, hid⟩ => Option.some.inj (hs.symm.trans hr) ▸ hid,
        fun hid => ⟨r, hr, hid⟩⟩
    simp only [hid]

theorem setSubscription_edited (reg : Registry) (conn : ConnectionId) (t : Topic) (on : Bool) :
    reg.Edited (reg.setSubscription conn t on).2
      (fun c a =>
        if c = conn then { a with subscriptions := a.subscriptions.set t on } else a)
      (fun r => r) := by
  unfold setSubscription
  split
  · exact edited_modifyAccount reg conn _
  · rename_i hnone
    refine (Edited.refl reg).congr (fun c a ha => ?_) (fun _ _ _ => rfl)
    have hne : c ≠ conn := by
      rintro rfl
      exact hnone (by rw [Table.contains, show reg.accounts.get? c = some a from ha]; rfl)
    rw [if_neg hne]

theorem Filed.updateRoom_edited {reg : Registry} (h : reg.Filed) (conn : ConnectionId)
    (edit : Room → Room) :
    reg.Edited (reg.updateRoom conn edit).2 (fun _ a => a)
      (fun r => if r.owner = conn then edit r else r) := by
  have hedit : reg.Edited (reg.modifyRoom conn edit) (fun _ a => a)
      (fun r => if r.owner = conn then edit r else r) := by
    refine ⟨rfl, rfl, rfl, fun _ => Option.map_id'.symm, fun o => ?_⟩
    rw [roomOf?_modifyRoom]
    refine Option.map_congr fun r hr => ?_
    rw [h.owner_eq hr]
  unfold updateRoom
  dsimp only
  split
  · rename_i hnone
    refine (Edited.refl reg).congr (fun _ _ _ => rfl) fun o r hr => ?_
    have hne : r.owner ≠ conn := by
      intro howner
      have hr' := hedit.roomOf?_eq conn
      rw [← howner, h.owner_eq hr, hr] at hr'
      rw [← howner, h.owner_eq hr] at hnone
      exact absurd (hnone.symm.trans hr') (by simp)
    rw [if_neg hne]
  · exact hedit

/-- A seat given back changes the room with the number, if there is one. -/
theorem Filed.vacate_edited {reg : Registry} (h : reg.Filed) (id : RoomId) (conn : ConnectionId) :
    reg.Edited (reg.vacate id conn).2 (fun _ a => a)
      (fun r => if r.id = id then r.unseat conn else r) := by
  unfold vacate
  split
  · rename_i hnone
    refine (Edited.refl reg).congr (fun _ _ _ => rfl) fun o r hr => ?_
    have hne : r.id ≠ id := by
      rintro rfl
      rw [h.room?_of_roomOf? hr] at hnone
      exact nomatch hnone
    rw [if_neg hne]
  · exact h.edited_modifyRoomAt id _

theorem vacate_fst (reg : Registry) (id : RoomId) (conn : ConnectionId) :
    (reg.vacate id conn).1 = (reg.room? id).map (·.unseat conn) := by
  unfold vacate
  cases reg.room? id <;> rfl

/-! ## Seats -/

/-- The room of somebody else that a connection has joined. -/
def joined? (reg : Registry) (conn : ConnectionId) : Option RoomId :=
  (reg.account? conn).bind (·.joinedRoom)

theorem joined?_eq {reg : Registry} {conn : ConnectionId} {a : Account}
    (ha : reg.account? conn = some a) : reg.joined? conn = a.joinedRoom := by
  rw [joined?, ha]
  rfl

/-- Whether room `room` has a place for a connection, or the connection has one already. -/
def Admits (room : Room) (conn : ConnectionId) : Prop :=
  room.hasSeat conn ∨ ¬ room.isFull

theorem admits_iff {room : Room} {conn : ConnectionId} :
    Admits room conn ↔ (!room.hasSeat conn && room.isFull) = false := by
  unfold Admits
  cases room.hasSeat conn <;> cases room.isFull <;> simp

theorem Filed.takeSeat_cases {reg : Registry} (h : reg.Filed) (id : RoomId) (conn : ConnectionId) :
    (∃ e, reg.takeSeat id conn = (.error e, reg)) ∨
      ∃ room, reg.room? id = some room ∧ Admits room conn ∧
        (reg.takeSeat id conn).1 = .ok (room.seat conn) ∧
        reg.Edited (reg.takeSeat id conn).2
          (fun c a =>
            if c = conn ∧ room.owner ≠ conn then { a with joinedRoom := some id } else a)
          (fun r => if r.id = id then r.seat conn else r) := by
  unfold takeSeat
  cases hroom : reg.room? id with
  | none => exact .inl ⟨_, rfl⟩
  | some room =>
    dsimp only
    split
    · exact .inl ⟨_, rfl⟩
    · rename_i hfull
      refine .inr ⟨room, rfl, admits_iff.mpr (Bool.not_eq_true _ ▸ hfull), rfl, ?_⟩
      have hseat := h.edited_modifyRoomAt id (·.seat conn)
      by_cases howner : room.owner = conn
      · simpa [howner] using hseat
      · simpa [howner] using hseat.trans (edited_modifyAccount _ conn _)

/-- A move gives the new seat, takes back the one in the room joined before and makes the account
note the new room, unless it is its own. -/
theorem Filed.changeSeat_cases {reg : Registry} (h : reg.Filed) (id : RoomId)
    (conn : ConnectionId) :
    (∃ e, reg.changeSeat id conn = (.error e, reg)) ∨
      ∃ room, reg.room? id = some room ∧ Admits room conn ∧
        (reg.changeSeat id conn).1 =
          .ok ⟨room.seat conn,
            ((reg.joined? conn).filter (· ≠ id)).bind fun p => (reg.room? p).map (·.unseat conn)⟩ ∧
        reg.Edited (reg.changeSeat id conn).2
          (fun c a =>
            if c = conn then
              { a with joinedRoom := if room.owner = conn then none else some id }
            else a)
          (fun r =>
            if r.id = id then r.seat conn
            else if reg.joined? conn = some r.id then r.unseat conn else r) := by
  unfold changeSeat
  cases hroom : reg.room? id with
  | none => exact .inl ⟨_, rfl⟩
  | some room =>
    dsimp only
    split
    · exact .inl ⟨_, rfl⟩
    · rename_i hfull
      refine .inr ⟨room, rfl, admits_iff.mpr (Bool.not_eq_true _ ▸ hfull), ?_⟩
      have hseat := h.edited_modifyRoomAt id (·.seat conn)
      have hfiled : (reg.modifyRoomAt id (·.seat conn)).Filed :=
        hseat.filed (fun _ _ => rfl) (fun r => by split <;> simp) (fun r => by split <;> simp) h
      have hprev : ((reg.modifyRoomAt id (·.seat conn)).account? conn).bind (·.joinedRoom) =
          reg.joined? conn := by
        rw [account?_modifyRoomAt, joined?]
      rw [hprev]
      cases hp : (reg.joined? conn).filter (· ≠ id) with
      | none =>
        refine ⟨rfl, (hseat.trans (edited_modifyAccount _ conn _)).congr (fun _ _ _ => rfl) ?_⟩
        intro o r hr
        by_cases hid : r.id = id
        · simp [hid]
        · have hne : reg.joined? conn ≠ some r.id := by
            intro hj
            rw [hj] at hp
            simp [hid] at hp
          simp [hid, hne]
      | some p =>
        obtain ⟨hj, hpid⟩ := Option.filter_eq_some_iff.mp hp
        have hpid : p ≠ id := by simpa using hpid
        have hroom? : (reg.modifyRoomAt id (·.seat conn)).room? p = reg.room? p := by
          rw [hseat.room?_eq]
          cases hr : reg.room? p with
          | none => rfl
          | some r => simp [h.id_of_room? hr, hpid]
        refine ⟨?_, ((hseat.trans (hfiled.vacate_edited p conn)).trans
          (edited_modifyAccount _ conn _)).congr (fun _ _ _ => rfl) ?_⟩
        · dsimp only
          rw [vacate_fst, hroom?]
          rfl
        · intro o r hr
          by_cases hid : r.id = id
          · simp [hid, hpid.symm]
          · by_cases hrp : r.id = p
            · simp [hj, hrp, hpid]
            · simp [hid, hj, hrp, Ne.symm hrp]

theorem Filed.leaveSeat_cases {reg : Registry} (h : reg.Filed) (id : RoomId)
    (conn : ConnectionId) :
    (∃ e, reg.leaveSeat id conn = (.error e, reg)) ∨
      ∃ room, reg.room? id = some room ∧ room.owner ≠ conn ∧ conn ∈ room.players ∧
        (reg.leaveSeat id conn).1 = .ok (room.unseat conn) ∧
        reg.Edited (reg.leaveSeat id conn).2
          (fun c a =>
            if c = conn ∧ a.joinedRoom = some id then { a with joinedRoom := none } else a)
          (fun r => if r.id = id then r.unseat conn else r) := by
  unfold leaveSeat
  cases hroom : reg.room? id with
  | none => exact .inl ⟨_, rfl⟩
  | some room =>
    dsimp only
    split
    · exact .inl ⟨_, rfl⟩
    · rename_i howner
      split
      · rename_i hseat
        refine .inr ⟨room, rfl, howner, Room.hasSeat_iff.mp hseat, rfl, ?_⟩
        refine ((h.edited_modifyRoomAt id _).trans (edited_modifyAccount _ conn _)).congr
          (fun c a _ => ?_) (fun _ _ _ => rfl)
        by_cases hc : c = conn <;> simp [hc]
      · exact .inl ⟨_, rfl⟩

/-! ## Accounts and rooms that come and go -/

section Views

variable {reg : Registry} {conn : ConnectionId}

theorem contains_accounts_iff : reg.accounts.contains conn ↔ ∃ a, reg.account? conn = some a :=
  Option.isSome_iff_exists

theorem contains_rooms_iff : reg.rooms.contains conn ↔ ∃ r, reg.roomOf? conn = some r :=
  Option.isSome_iff_exists

/-- The account of a connection that logs in. -/
def newcomer (reg : Registry) (conn : ConnectionId) (name : RawText) (outbox : ConnectionId) :
    Account :=
  ⟨conn, ⟨reg.lastUid + 1⟩, name, .none, none, outbox⟩

theorem logIn_cases (reg : Registry) (conn : ConnectionId) (name : RawText)
    (outbox : ConnectionId) :
    (∃ e, reg.logIn conn name outbox = (.error e, reg)) ∨
      reg.account? conn = none ∧
        reg.logIn conn name outbox =
          (.ok ⟨reg.lastUid + 1⟩,
            { reg with
              lastUid := reg.lastUid + 1
              accounts := reg.accounts.insert conn (reg.newcomer conn name outbox) }) := by
  unfold logIn
  split
  · exact .inl ⟨_, rfl⟩
  · rename_i hnone
    refine .inr ⟨?_, rfl⟩
    rw [contains_accounts_iff, not_exists] at hnone
    exact Option.eq_none_iff_forall_ne_some.mpr hnone

theorem openRoom_cases (reg : Registry) (conn : ConnectionId) (ownerUid : UserId)
    (settings : RoomSettings) :
    (∃ e, reg.openRoom conn ownerUid settings = (.error e, reg)) ∨
      reg.roomOf? conn = none ∧
        reg.openRoom conn ownerUid settings =
          (.ok (.opened ⟨reg.lastRoomId + 1⟩ conn ownerUid settings),
            { reg with
              lastRoomId := reg.lastRoomId + 1
              owners := reg.owners.insert ⟨reg.lastRoomId + 1⟩ conn
              rooms := reg.rooms.insert conn
                (.opened ⟨reg.lastRoomId + 1⟩ conn ownerUid settings) }) := by
  unfold openRoom
  split
  · exact .inl ⟨_, rfl⟩
  · rename_i hnone
    refine .inr ⟨?_, rfl⟩
    rw [contains_rooms_iff, not_exists] at hnone
    exact Option.eq_none_iff_forall_ne_some.mpr hnone

/-- An account after room `gone`, if any, has gone: a player who had joined it forgets it. -/
def forget (gone : Option Room) (conn : ConnectionId) (a : Account) : Account :=
  match gone with
  | none => a
  | some room =>
    if conn ∈ room.players ∧ a.joinedRoom = some room.id then { a with joinedRoom := none } else a

@[simp] theorem conn_forget (gone : Option Room) (c : ConnectionId) (a : Account) :
    (forget gone c a).conn = a.conn := by
  unfold forget
  split
  · rfl
  · split <;> rfl

@[simp] theorem uid_forget (gone : Option Room) (c : ConnectionId) (a : Account) :
    (forget gone c a).uid = a.uid := by
  unfold forget
  split
  · rfl
  · split <;> rfl

/-- What an account has joined is another room. -/
theorem forget_of_ne {gone : Option Room} {c : ConnectionId} {a : Account}
    (hne : a.joinedRoom ≠ gone.map (·.id)) : forget gone c a = a := by
  unfold forget
  split
  · rfl
  · rw [if_neg]
    exact fun hgone => hne hgone.2

theorem closeRoom_cases (reg : Registry) (conn : ConnectionId) :
    (reg.roomOf? conn = none ∧ reg.closeRoom conn = (none, reg)) ∨
      ∃ room, reg.roomOf? conn = some room ∧
        reg.closeRoom conn =
          (some room,
            forgetSeats
              { reg with
                rooms := reg.rooms.erase conn
                owners := reg.owners.erase room.id }
              room.id room.players) := by
  unfold closeRoom
  cases hroom : reg.rooms.get? conn with
  | none => exact .inl ⟨hroom, rfl⟩
  | some room => exact .inr ⟨room, hroom, rfl⟩

theorem closeRoom_fst (reg : Registry) (conn : ConnectionId) :
    (reg.closeRoom conn).1 = reg.roomOf? conn := by
  rcases closeRoom_cases reg conn with ⟨hnone, heq⟩ | ⟨room, hroom, heq⟩
  · rw [heq, hnone]
  · rw [heq, hroom]

theorem account?_closeRoom (reg : Registry) (conn c : ConnectionId) :
    (reg.closeRoom conn).2.account? c =
      (reg.account? c).map (forget (reg.roomOf? conn) c) := by
  rcases closeRoom_cases reg conn with ⟨hnone, heq⟩ | ⟨room, hroom, heq⟩
  · rw [heq, hnone]
    exact Option.map_id'.symm
  · rw [heq, hroom]
    exact account?_forgetSeats _ _ _ c

theorem roomOf?_closeRoom (reg : Registry) (conn o : ConnectionId) :
    (reg.closeRoom conn).2.roomOf? o = if o = conn then none else reg.roomOf? o := by
  rcases closeRoom_cases reg conn with ⟨hnone, heq⟩ | ⟨room, _, heq⟩
  · rw [heq]
    by_cases ho : o = conn
    · rw [if_pos ho, ho, hnone]
    · rw [if_neg ho]
  · rw [heq]
    exact Table.get?_erase reg.rooms conn o

theorem room?_closeRoom (h : reg.Filed) (conn : ConnectionId) (id : RoomId) :
    (reg.closeRoom conn).2.room? id =
      if (reg.roomOf? conn).map (·.id) = some id then none else reg.room? id := by
  rcases closeRoom_cases reg conn with ⟨hnone, heq⟩ | ⟨room, hroom, heq⟩
  · rw [heq, hnone, if_neg (by simp)]
  have howners : (reg.closeRoom conn).2.owners = reg.owners.erase room.id := by
    rw [heq]
    rfl
  simp only [hroom, Option.map_some, Option.some.injEq]
  ext r
  rw [room?_eq_some, howners]
  simp only [Table.get?_erase, roomOf?_closeRoom]
  by_cases hid : room.id = id
  · simp [hid]
  · simp only [if_neg hid, if_neg (Ne.symm hid), room?_eq_some]
    refine exists_congr fun o => and_congr_right fun ho => ?_
    have hne : o ≠ conn := by
      rintro rfl
      obtain ⟨r', hr', hrid⟩ := h.owners_iff.mp ho
      rw [hroom, Option.some.injEq] at hr'
      exact hid (hr' ▸ hrid)
    rw [if_neg hne]

theorem closeRoom_filed (h : reg.Filed) (conn : ConnectionId) : (reg.closeRoom conn).2.Filed := by
  refine ⟨fun {c a} ha => ?_, fun {o r} hr => ?_, fun {id o} => ?_⟩
  · rw [account?_closeRoom] at ha
    obtain ⟨b, hb, rfl⟩ := Option.map_eq_some_iff.mp ha
    rw [conn_forget]
    exact h.conn_eq hb
  · rw [roomOf?_closeRoom] at hr
    split at hr
    · exact nomatch hr
    · exact h.owner_eq hr
  · simp only [roomOf?_closeRoom]
    rcases closeRoom_cases reg conn with ⟨hnone, heq⟩ | ⟨room, hroom, heq⟩
    · rw [heq, h.owners_iff]
      by_cases ho : o = conn
      · rw [if_pos ho, ho, hnone]
      · rw [if_neg ho]
    · rw [heq]
      show (reg.owners.erase room.id).get? id = some o ↔ _
      rw [Table.get?_erase]
      by_cases hid : id = room.id
      · subst hid
        simp only [if_pos, reduceCtorEq, false_iff, not_exists, not_and]
        intro r hr hrid
        split at hr
        · exact nomatch hr
        · rename_i hne
          have hsame := h.room_eq_of_id_eq hr hroom hrid
          exact hne (by rw [← h.owner_eq hr, hsame, h.owner_eq hroom])
      · rw [if_neg hid, h.owners_iff]
        by_cases ho : o = conn
        · subst ho
          simp only [if_pos, reduceCtorEq, false_and, exists_false, iff_false, not_exists, not_and]
          intro r hr hrid
          rw [hroom, Option.some.injEq] at hr
          exact hid (hrid ▸ hr ▸ rfl)
        · rw [if_neg ho]

/-- The registry after the account of a connection is gone, before anything that hung on it. -/
def withoutAccount (reg : Registry) (conn : ConnectionId) : Registry :=
  { reg with accounts := reg.accounts.erase conn }

theorem account?_withoutAccount (reg : Registry) (conn c : ConnectionId) :
    (reg.withoutAccount conn).account? c = if c = conn then none else reg.account? c :=
  Table.get?_erase _ _ _

theorem withoutAccount_filed (h : reg.Filed) (conn : ConnectionId) :
    (reg.withoutAccount conn).Filed where
  conn_eq {c a} ha := by
    rw [account?_withoutAccount] at ha
    split at ha
    · exact nomatch ha
    · exact h.conn_eq ha
  owner_eq hr := h.owner_eq hr
  owners_iff := h.owners_iff

/-- A logout takes the account away, then its room, then its seat in another room. -/
theorem logOut_cases (reg : Registry) (conn : ConnectionId) :
    (reg.account? conn = none ∧ reg.logOut conn = (none, reg)) ∨
      ∃ a, reg.account? conn = some a ∧
        (reg.logOut conn).1 =
          some ⟨a, reg.roomOf? conn,
            a.joinedRoom.bind fun id =>
              ((((reg.withoutAccount conn).closeRoom conn).2.room? id).map (·.unseat conn))⟩ ∧
        (reg.logOut conn).2 =
          match a.joinedRoom with
          | none => ((reg.withoutAccount conn).closeRoom conn).2
          | some id => (((reg.withoutAccount conn).closeRoom conn).2.vacate id conn).2 := by
  have hclosed : ((reg.withoutAccount conn).closeRoom conn).1 = reg.roomOf? conn :=
    closeRoom_fst _ _
  cases ha : reg.account? conn with
  | none =>
    refine .inl ⟨rfl, ?_⟩
    unfold logOut
    rw [show reg.accounts.get? conn = none from ha]
  | some a =>
    refine .inr ⟨a, rfl, ?_⟩
    unfold logOut
    rw [show reg.accounts.get? conn = some a from ha]
    dsimp only
    rw [show ({ reg with accounts := reg.accounts.erase conn } : Registry) =
      reg.withoutAccount conn from rfl, hclosed]
    cases hj : a.joinedRoom with
    | none => exact ⟨rfl, rfl⟩
    | some id => exact ⟨by rw [vacate_fst]; rfl, rfl⟩

theorem logOut_edited (h : reg.Filed) {a : Account} (ha : reg.account? conn = some a) :
    ((reg.withoutAccount conn).closeRoom conn).2.Edited (reg.logOut conn).2 (fun _ a => a)
      (fun r => if a.joinedRoom = some r.id then r.unseat conn else r) := by
  have hfiled := closeRoom_filed (withoutAccount_filed h conn) conn
  rcases logOut_cases reg conn with ⟨hnone, _⟩ | ⟨b, hb, _, heq⟩
  · rw [ha] at hnone
    exact nomatch hnone
  · rw [ha, Option.some.injEq] at hb
    subst hb
    rw [heq]
    cases hj : a.joinedRoom with
    | none => simpa using Edited.refl _
    | some id => simpa [eq_comm] using hfiled.vacate_edited id conn

theorem account?_logOut (h : reg.Filed) {a : Account} (ha : reg.account? conn = some a)
    (c : ConnectionId) :
    (reg.logOut conn).2.account? c =
      if c = conn then none else (reg.account? c).map (forget (reg.roomOf? conn) c) := by
  rw [(logOut_edited h ha).account?_eq, Option.map_id', account?_closeRoom, account?_withoutAccount]
  split <;> rfl

theorem roomOf?_logOut (h : reg.Filed) {a : Account} (ha : reg.account? conn = some a)
    (o : ConnectionId) :
    (reg.logOut conn).2.roomOf? o =
      if o = conn then none
      else (reg.roomOf? o).map fun r =>
        if a.joinedRoom = some r.id then r.unseat conn else r := by
  rw [(logOut_edited h ha).roomOf?_eq, roomOf?_closeRoom]
  split <;> rfl

end Views

/-! ## Whether calls go through -/

section Answers

variable {reg : Registry} {conn : ConnectionId}

theorem takeSeat_of_admits {id : RoomId} {room : Room} (hroom : reg.room? id = some room)
    (hadmits : Admits room conn) :
    (reg.takeSeat id conn).1 = .ok (room.seat conn) := by
  unfold takeSeat
  rw [hroom]
  simp [admits_iff.mp hadmits]

theorem changeSeat_of_admits {id : RoomId} {room : Room} (hroom : reg.room? id = some room)
    (hadmits : Admits room conn) :
    ∃ left, (reg.changeSeat id conn).1 = .ok ⟨room.seat conn, left⟩ := by
  unfold changeSeat
  rw [hroom]
  simp only [admits_iff.mp hadmits, Bool.false_eq_true, if_false]
  exact ⟨_, rfl⟩

theorem leaveSeat_of_error {id : RoomId} {e : RegistryError}
    (h : (reg.leaveSeat id conn).1 = .error e) : (reg.leaveSeat id conn).2 = reg := by
  unfold leaveSeat at h ⊢
  split
  · rfl
  · split
    · rfl
    · split
      · rename_i hroom howner hseat
        rw [hroom] at h
        simp [howner, hseat] at h
      · rfl

theorem changeSeat_of_error {id : RoomId} {e : RegistryError}
    (h : (reg.changeSeat id conn).1 = .error e) : (reg.changeSeat id conn).2 = reg := by
  unfold changeSeat at h ⊢
  cases hroom : reg.room? id with
  | none => rfl
  | some room =>
    rw [hroom] at h
    dsimp only at h ⊢
    split
    · rfl
    · rename_i hfull
      rw [if_neg hfull] at h
      exact nomatch h

theorem leaveSeat_error {id : RoomId} {e : RegistryError}
    (h : (reg.leaveSeat id conn).1 = .error e) :
    e = .roomNotFound id ∨ e = .ownerSeat id ∨ e = .notInRoom id conn := by
  unfold leaveSeat at h
  split at h
  · cases h
    exact .inl rfl
  split at h
  · cases h
    exact .inr (.inl rfl)
  split at h
  · cases h
  · cases h
    exact .inr (.inr rfl)

theorem changeSeat_error {id : RoomId} {e : RegistryError}
    (h : (reg.changeSeat id conn).1 = .error e) : e = .roomNotFound id ∨ e = .roomFull id := by
  unfold changeSeat at h
  split at h
  · cases h
    exact .inl rfl
  dsimp only at h
  split at h
  · cases h
    exact .inr rfl
  · cases h

theorem setSubscription_of_none {t : Topic} {on : Bool} (h : reg.account? conn = none) :
    reg.setSubscription conn t on = (.error (.noAccount conn), reg) := by
  unfold setSubscription
  rw [if_neg]
  simp [contains_accounts_iff, h]

theorem setSubscription_of_some {t : Topic} {on : Bool} {a : Account}
    (h : reg.account? conn = some a) : (reg.setSubscription conn t on).1 = .ok () := by
  unfold setSubscription
  rw [if_pos (contains_accounts_iff.mpr ⟨a, h⟩)]

theorem logIn_of_none {name : RawText} {outbox : ConnectionId} (h : reg.account? conn = none) :
    (reg.logIn conn name outbox).1 = .ok ⟨reg.lastUid + 1⟩ := by
  unfold logIn
  rw [if_neg]
  simp [contains_accounts_iff, h]

theorem registry_logIn_of_none {name : RawText} {outbox : ConnectionId}
    (h : reg.account? conn = none) :
    (reg.logIn conn name outbox).2 =
      { reg with
        lastUid := reg.lastUid + 1
        accounts := reg.accounts.insert conn (reg.newcomer conn name outbox) } := by
  rcases logIn_cases reg conn name outbox with ⟨e, heq⟩ | ⟨-, heq⟩
  · exact nomatch (congrArg Prod.fst heq).symm.trans (logIn_of_none h)
  · rw [heq]

theorem account?_logIn_of_none {name : RawText} {outbox : ConnectionId}
    (h : reg.account? conn = none) (c : ConnectionId) :
    (reg.logIn conn name outbox).2.account? c =
      if c = conn then some (reg.newcomer conn name outbox) else reg.account? c := by
  rw [registry_logIn_of_none h]
  exact Table.get?_insert ..

theorem updateRoom_of_room {edit : Room → Room} {room : Room} (h : reg.roomOf? conn = some room) :
    reg.updateRoom conn edit = (some (edit room), reg.modifyRoom conn edit) := by
  have hedited : (reg.modifyRoom conn edit).rooms.get? conn = some (edit room) := by
    show Registry.roomOf? _ _ = _
    rw [roomOf?_modifyRoom, h]
    simp
  unfold updateRoom
  dsimp only
  rw [hedited]

theorem editRoom_of_room {edit : Listing → Listing} {room : Room}
    (h : reg.roomOf? conn = some room) :
    reg.editRoom conn edit = (some (room.relist edit), reg.modifyRoom conn (.relist edit)) :=
  updateRoom_of_room h

/-- The owner finds its room edited. -/
theorem roomOf?_editRoom_of_room {edit : Listing → Listing} {room : Room}
    (h : reg.roomOf? conn = some room) :
    (reg.editRoom conn edit).2.roomOf? conn = some (room.relist edit) := by
  rw [editRoom_of_room h, roomOf?_modifyRoom, h, Option.map_some, if_pos rfl]

theorem openRoom_of_none {uid : UserId} {settings : RoomSettings} (h : reg.roomOf? conn = none) :
    (reg.openRoom conn uid settings).1 = .ok (.opened ⟨reg.lastRoomId + 1⟩ conn uid settings) := by
  unfold openRoom
  rw [if_neg]
  simp [contains_rooms_iff, h]

theorem roomOf?_openRoom_of_none {uid : UserId} {settings : RoomSettings}
    (h : reg.roomOf? conn = none) :
    (reg.openRoom conn uid settings).2.roomOf? conn =
      some (.opened ⟨reg.lastRoomId + 1⟩ conn uid settings) := by
  unfold openRoom
  rw [if_neg]
  · exact Table.get?_insert_self ..
  · simp [contains_rooms_iff, h]

theorem roomOf?_leaveSeat_of_none {id : RoomId} {o : ConnectionId} (h : reg.roomOf? o = none) :
    (reg.leaveSeat id conn).2.roomOf? o = none := by
  unfold leaveSeat
  cases reg.room? id with
  | none => exact h
  | some room =>
    dsimp only
    split
    · exact h
    · split
      · simp [roomOf?_modifyRoomAt, h]
      · exact h

theorem lastRoomId_leaveSeat (id : RoomId) :
    (reg.leaveSeat id conn).2.lastRoomId = reg.lastRoomId := by
  unfold leaveSeat
  cases reg.room? id with
  | none => rfl
  | some room =>
    dsimp only
    split
    · rfl
    · split
      · exact lastRoomId_modifyRoomAt ..
      · rfl

/-- Who gives up a seat keeps the account. -/
theorem account?_leaveSeat {c : ConnectionId} {a : Account} (id : RoomId)
    (ha : reg.account? c = some a) :
    ∃ b, (reg.leaveSeat id conn).2.account? c = some b ∧ b.uid = a.uid := by
  unfold leaveSeat
  cases reg.room? id with
  | none => exact ⟨a, ha, rfl⟩
  | some room =>
    dsimp only
    split
    · exact ⟨a, ha, rfl⟩
    · split
      · rw [account?_modifyAccount, account?_modifyRoomAt, ha, Option.map_some]
        refine ⟨_, rfl, ?_⟩
        split
        · split <;> rfl
        · rfl
      · exact ⟨a, ha, rfl⟩

theorem lastRoomId_closeRoom : (reg.closeRoom conn).2.lastRoomId = reg.lastRoomId := by
  rcases closeRoom_cases reg conn with ⟨_, heq⟩ | ⟨_, _, heq⟩
  · rw [heq]
  · rw [heq]
    rfl

end Answers

end Registry

end GameLobby
