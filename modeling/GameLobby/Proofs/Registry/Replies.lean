import GameLobby.Proofs.Registry.Answers
import GameLobby.Proofs.Registry.Capacity
import GameLobby.Proofs.Registry.Seats

/-!
# Replies

`Registry.Reply` is what a call answers, whatever the call. A call that fails leaves the registry as
it is (`Call.apply_of_failed`). The rooms in a reply are rooms as the registry has them after the
call, `Reply.standing`, or rooms that it had before and has no longer, `Reply.removed`.

Main statement: `replies_tell_truth`.
-/

namespace GameLobby.Registry

/-- What a call answers. -/
inductive Reply where
  | refused (e : RegistryError)
  /-- There was nothing there to do the call to. -/
  | nothing
  | user (uid : UserId)
  | done
  | opened (r : Room)
  | closed (r : Room)
  /-- The room that its owner edited, or that somebody entered or left. -/
  | room (r : Room)
  | moved (change : SeatChange)
  | departed (d : Logout)
  deriving DecidableEq, Repr

namespace Reply

variable {α β : Type}

/-- The reply with an error or with what `f` makes of a result. -/
def ofExcept (f : α → Reply) : Except RegistryError α → Reply
  | .ok a => f a
  | .error e => .refused e

/-- The reply with what `f` makes of a result, if there is one. -/
def ofOption (f : α → Reply) : Option α → Reply
  | some a => f a
  | none => .nothing

/-- The call came to nothing. -/
def Failed : Reply → Prop
  | .refused _ | .nothing => True
  | _ => False

/-- The rooms in a reply that are said to be there. -/
def standing : Reply → List Room
  | .opened r | .room r => [r]
  | .moved change => change.entered :: change.left.toList
  | .departed d => d.leftRoom.toList
  | _ => []

/-- The rooms in a reply that are said to be gone. -/
def removed : Reply → List Room
  | .closed r => [r]
  | .departed d => d.ownedRoom.toList
  | _ => []

theorem error_of_failed {f : α → Reply} {x : Except RegistryError α} (h : (ofExcept f x).Failed)
    (hf : ∀ a, ¬ (f a).Failed) : ∃ e, x = .error e := by
  cases x with
  | ok a => exact absurd h (hf a)
  | error e => exact ⟨e, rfl⟩

theorem none_of_failed {f : α → Reply} {x : Option α} (h : (ofOption f x).Failed)
    (hf : ∀ a, ¬ (f a).Failed) : x = none := by
  cases x with
  | some a => exact absurd h (hf a)
  | none => rfl

/-- What holds of every refusal and of what comes with any result holds of the reply. -/
theorem of_ofExcept {P : Reply → Prop} {f : α → Reply} (herror : ∀ e, P (.refused e))
    (hok : ∀ a, P (f a)) (x : Except RegistryError α) : P (ofExcept f x) := by
  cases x with
  | ok a => exact hok a
  | error e => exact herror e

theorem of_ofOption {P : Reply → Prop} {f : α → Reply} (hnone : P .nothing) (hsome : ∀ a, P (f a))
    (x : Option α) : P (ofOption f x) := by
  cases x with
  | some a => exact hsome a
  | none => exact hnone

/-- What a reading that gives nothing for a refusal finds in a reply comes with a result. -/
theorem mem_ofExcept {read : Reply → List β} (hread : ∀ e, read (.refused e) = [])
    {f : α → Reply} {x : Except RegistryError α} {b : β} :
    b ∈ read (ofExcept f x) ↔ ∃ a, x = .ok a ∧ b ∈ read (f a) := by
  cases x with
  | ok a =>
    constructor
    · exact fun hb => ⟨a, rfl, hb⟩
    · rintro ⟨_, ha, hb⟩
      cases ha
      exact hb
  | error e => simp [ofExcept, hread e]

theorem mem_ofOption {read : Reply → List β} (hread : read .nothing = []) {f : α → Reply}
    {x : Option α} {b : β} : b ∈ read (ofOption f x) ↔ ∃ a, x = some a ∧ b ∈ read (f a) := by
  cases x with
  | some a =>
    constructor
    · exact fun hb => ⟨a, rfl, hb⟩
    · rintro ⟨_, ha, hb⟩
      cases ha
      exact hb
  | none => simp [ofOption, hread]

end Reply

/-- The answer to a call. -/
def Call.reply (reg : Registry) : Call → Reply
  | .logIn conn name outbox => .ofExcept .user (reg.logIn conn name outbox).1
  | .logOut conn => .ofOption .departed (reg.logOut conn).1
  | .setSubscription conn t on => .ofExcept (fun _ => .done) (reg.setSubscription conn t on).1
  | .openRoom conn ownerUid settings => .ofExcept .opened (reg.openRoom conn ownerUid settings).1
  | .closeRoom conn => .ofOption .closed (reg.closeRoom conn).1
  | .updateRoom conn edit => .ofOption .room (reg.updateRoom conn edit).1
  | .takeSeat id conn => .ofExcept .room (reg.takeSeat id conn).1
  | .changeSeat id conn => .ofExcept .moved (reg.changeSeat id conn).1
  | .leaveSeat id conn => .ofExcept .room (reg.leaveSeat id conn).1

variable {reg : Registry}

/-! ## Failures -/

theorem takeSeat_of_error {id : RoomId} {conn : ConnectionId} {e : RegistryError}
    (h : (reg.takeSeat id conn).1 = .error e) : (reg.takeSeat id conn).2 = reg := by
  unfold takeSeat at h ⊢
  cases hroom : reg.room? id with
  | none => rfl
  | some room =>
    rw [hroom] at h
    dsimp only at h ⊢
    split
    · rfl
    · rename_i hfull
      rw [if_neg hfull] at h
      exact nomatch h

/-- A call that fails changes nothing. -/
theorem Call.apply_of_failed {call : Call} (h : (call.reply reg).Failed) :
    call.apply reg = reg := by
  cases call with
  | logIn conn name outbox =>
    obtain ⟨e, he⟩ := Reply.error_of_failed h fun _ hf => hf
    rcases logIn_cases reg conn name outbox with ⟨_, heq⟩ | ⟨-, heq⟩
    · exact congrArg Prod.snd heq
    · exact nomatch (congrArg Prod.fst heq).symm.trans he
  | logOut conn =>
    have hnone := Reply.none_of_failed h fun _ hf => hf
    rcases logOut_cases reg conn with ⟨-, heq⟩ | ⟨a, -, hsome, -⟩
    · exact congrArg Prod.snd heq
    · exact nomatch hsome.symm.trans hnone
  | setSubscription conn t on =>
    obtain ⟨e, he⟩ := Reply.error_of_failed h fun _ hf => hf
    cases ha : reg.account? conn with
    | none => exact congrArg Prod.snd (setSubscription_of_none ha)
    | some a => exact nomatch (setSubscription_of_some ha).symm.trans he
  | openRoom conn ownerUid settings =>
    obtain ⟨e, he⟩ := Reply.error_of_failed h fun _ hf => hf
    rcases openRoom_cases reg conn ownerUid settings with ⟨_, heq⟩ | ⟨-, heq⟩
    · exact congrArg Prod.snd heq
    · exact nomatch (congrArg Prod.fst heq).symm.trans he
  | closeRoom conn =>
    have hnone := Reply.none_of_failed h fun _ hf => hf
    rcases closeRoom_cases reg conn with ⟨-, heq⟩ | ⟨room, -, heq⟩
    · exact congrArg Prod.snd heq
    · exact nomatch (congrArg Prod.fst heq).symm.trans hnone
  | updateRoom conn edit =>
    have hnone := Reply.none_of_failed h fun _ hf => hf
    show (reg.updateRoom conn edit).2 = reg
    unfold Registry.updateRoom at hnone ⊢
    dsimp only at hnone ⊢
    split
    · rfl
    · rename_i hsome
      rw [hsome] at hnone
      exact nomatch hnone
  | takeSeat id conn =>
    obtain ⟨e, he⟩ := Reply.error_of_failed h fun _ hf => hf
    exact takeSeat_of_error he
  | changeSeat id conn =>
    obtain ⟨e, he⟩ := Reply.error_of_failed h fun _ hf => hf
    exact changeSeat_of_error he
  | leaveSeat id conn =>
    obtain ⟨e, he⟩ := Reply.error_of_failed h fun _ hf => hf
    exact leaveSeat_of_error he

/-! ## Rooms in replies -/

/-- Room `r` is found by its number and by its owner. -/
def Holds (reg : Registry) (r : Room) : Prop :=
  reg.room? r.id = some r ∧ reg.roomOf? r.owner = some r

/-- A room that stands after a call is filed under its owner, if the rooms before it were and are
edited in their listings only. -/
theorem owner_eq_apply (h : ∀ {o r}, reg.roomOf? o = some r → r.owner = o) {call : Call}
    (hrelists : call.Relists) {o : ConnectionId} {r' : Room}
    (hr' : (call.apply reg).roomOf? o = some r') : r'.owner = o := by
  rcases roomOf?_apply_cases hr' with ⟨r, hr, hchange⟩ | ⟨-, uid, settings, -, rfl⟩
  · exact (hchange.owner_eq fun _ => hrelists).trans (h hr)
  · rfl

theorem Filed.room?_of_takeSeat (h : reg.Filed) {id : RoomId} {conn : ConnectionId} {room : Room}
    (hok : (reg.takeSeat id conn).1 = .ok room) :
    room.id = id ∧ (reg.takeSeat id conn).2.room? id = some room := by
  rcases h.takeSeat_cases id conn with ⟨e, heq⟩ | ⟨r, hr, -, hanswer, he⟩
  · rw [heq] at hok
    exact nomatch hok
  · rw [hanswer] at hok
    cases hok
    have hid := h.id_of_room? hr
    refine ⟨(Room.id_seat conn r).trans hid, ?_⟩
    rw [he.room?_eq, hr, Option.map_some, if_pos hid]

/-- The room in which a call asks for a seat or gives one up. -/
def Call.seatIn? : Call → Option RoomId
  | .takeSeat id _ | .changeSeat id _ | .leaveSeat id _ => some id
  | _ => none

theorem updateRoom_fst (reg : Registry) (conn : ConnectionId) (edit : Room → Room) :
    (reg.updateRoom conn edit).1 = (reg.roomOf? conn).map edit := by
  cases hroom : reg.roomOf? conn with
  | some room => exact congrArg Prod.fst (updateRoom_of_room hroom)
  | none =>
    have hnone : (reg.modifyRoom conn edit).rooms.get? conn = none := by
      show Registry.roomOf? _ _ = none
      rw [roomOf?_modifyRoom, hroom]
      rfl
    unfold updateRoom
    dsimp only
    rw [hnone]
    rfl

namespace WellFormed

variable (h : reg.WellFormed)

include h

/-- A room that a reply says is there is found by its number. -/
theorem room?_of_standing {call : Call} (hrelists : call.Relists) {r : Room}
    (hr : r ∈ (call.reply reg).standing) : (call.apply reg).room? r.id = some r := by
  cases call with
  | logIn conn name outbox =>
    obtain ⟨_, -, hr⟩ := (Reply.mem_ofExcept fun _ => rfl).mp hr
    cases hr
  | logOut conn =>
    obtain ⟨d, hd, hr⟩ := (Reply.mem_ofOption rfl).mp hr
    obtain ⟨-, -, -, hstill⟩ := h.room?_logOut hd
    exact hstill r (Option.mem_toList.mp hr)
  | setSubscription conn t on =>
    obtain ⟨_, -, hr⟩ := (Reply.mem_ofExcept fun _ => rfl).mp hr
    cases hr
  | openRoom conn ownerUid settings =>
    obtain ⟨room, hok, hr⟩ := (Reply.mem_ofExcept fun _ => rfl).mp hr
    rw [List.mem_singleton.mp hr]
    rcases openRoom_cases reg conn ownerUid settings with ⟨e, heq⟩ | ⟨hnone, heq⟩
    · rw [heq] at hok
      cases hok
    · rw [heq] at hok
      cases hok
      exact (h.room?_openRoom conn ownerUid settings hnone _).trans (if_pos rfl)
  | closeRoom conn =>
    obtain ⟨_, -, hr⟩ := (Reply.mem_ofOption rfl).mp hr
    cases hr
  | updateRoom conn edit =>
    obtain ⟨relisting, rfl⟩ := hrelists
    obtain ⟨room, hok, hr⟩ := (Reply.mem_ofOption rfl).mp hr
    rw [List.mem_singleton.mp hr]
    rw [updateRoom_fst] at hok
    obtain ⟨old, hold, rfl⟩ := Option.map_eq_some_iff.mp hok
    exact h.room?_editRoom hold relisting
  | takeSeat id conn =>
    obtain ⟨room, hok, hr⟩ := (Reply.mem_ofExcept fun _ => rfl).mp hr
    rw [List.mem_singleton.mp hr]
    obtain ⟨hid, hseated⟩ := h.room?_of_takeSeat hok
    rw [hid]
    exact hseated
  | changeSeat id conn =>
    obtain ⟨change, hok, hr⟩ := (Reply.mem_ofExcept fun _ => rfl).mp hr
    obtain ⟨⟨hid, hentered⟩, hleft⟩ := h.room?_changeSeat hok
    rcases List.mem_cons.mp hr with rfl | hr
    · rw [hid]
      exact hentered
    · rw [Option.mem_toList.mp hr] at hleft
      exact hleft.2.2
  | leaveSeat id conn =>
    obtain ⟨room, hok, hr⟩ := (Reply.mem_ofExcept fun _ => rfl).mp hr
    rw [List.mem_singleton.mp hr]
    obtain ⟨hid, hstill⟩ := h.room?_leaveSeat hok
    rw [hid]
    exact hstill

/-- A room that a reply says is gone was there, and neither its number nor its owner leads to a room
any longer. -/
theorem gone_of_removed {call : Call} {r : Room} (hr : r ∈ (call.reply reg).removed) :
    reg.Holds r ∧ (call.apply reg).room? r.id = none ∧ (call.apply reg).roomOf? r.owner = none := by
  cases call with
  | logOut conn =>
    obtain ⟨d, hd, hr⟩ := (Reply.mem_ofOption rfl).mp hr
    have hr := Option.mem_toList.mp hr
    obtain ⟨howned, hgone, -⟩ := h.room?_logOut hd
    have hroom : reg.roomOf? conn = some r := howned.symm.trans hr
    have howner := h.owner_eq hroom
    refine ⟨⟨h.room?_of_roomOf? hroom, howner.symm ▸ hroom⟩, hgone r hr, ?_⟩
    rcases logOut_cases reg conn with ⟨-, heq⟩ | ⟨a, ha, -⟩
    · rw [heq] at hd
      cases hd
    · exact (roomOf?_logOut h.toFiled ha r.owner).trans (if_pos howner)
  | closeRoom conn =>
    obtain ⟨room, hok, hr⟩ := (Reply.mem_ofOption rfl).mp hr
    rw [List.mem_singleton.mp hr]
    rw [closeRoom_fst] at hok
    have howner := h.owner_eq hok
    refine ⟨⟨h.room?_of_roomOf? hok, howner.symm ▸ hok⟩, ?_, ?_⟩
    · refine (room?_closeRoom h.toFiled conn room.id).trans (if_pos ?_)
      rw [hok]
      rfl
    · exact (roomOf?_closeRoom reg conn room.owner).trans (if_pos howner)
  | logIn | setSubscription | openRoom | takeSeat | changeSeat | leaveSeat =>
    obtain ⟨_, -, hr⟩ := (Reply.mem_ofExcept fun _ => rfl).mp hr
    cases hr
  | updateRoom =>
    obtain ⟨_, -, hr⟩ := (Reply.mem_ofOption rfl).mp hr
    cases hr

/-- Who asks for a change of seats in a room is answered with that room. -/
theorem id_of_seatIn? {call : Call} {id : RoomId} (hid : call.seatIn? = some id) {r : Room}
    (hr : (call.reply reg).standing.head? = some r) : r.id = id := by
  cases call with
  | takeSeat =>
    cases hid
    obtain ⟨room, hok, hmem⟩ := (Reply.mem_ofExcept fun _ => rfl).mp (List.mem_of_mem_head? hr)
    rw [List.mem_singleton.mp hmem]
    exact (h.room?_of_takeSeat hok).1
  | changeSeat =>
    cases hid
    obtain ⟨change, hok, -⟩ := (Reply.mem_ofExcept fun _ => rfl).mp (List.mem_of_mem_head? hr)
    rw [Call.reply, hok] at hr
    cases hr
    exact (h.room?_changeSeat hok).1.1
  | leaveSeat =>
    cases hid
    obtain ⟨room, hok, hmem⟩ := (Reply.mem_ofExcept fun _ => rfl).mp (List.mem_of_mem_head? hr)
    rw [List.mem_singleton.mp hmem]
    exact (h.room?_leaveSeat hok).1
  | logIn | logOut | setSubscription | openRoom | closeRoom | updateRoom => cases hid

end WellFormed

/-- **Replies.** In a registry that calls by anybody lead to, a call that fails changes nothing.
Each room in the reply to a call that goes through is the one that is then found by its number and
by its owner, and where seats were asked for it is the room asked for that comes first. A room that
went is the one that was there, and neither its number nor its owner leads to a room any longer. -/
theorem replies_tell_truth (h : ReachedBy (fun _ _ => True) reg) (call : Call)
    (hrelists : call.Relists) :
    ((call.reply reg).Failed → call.apply reg = reg) ∧
    (∀ r ∈ (call.reply reg).standing, (call.apply reg).Holds r) ∧
    (∀ id, call.seatIn? = some id → ∀ r, (call.reply reg).standing.head? = some r → r.id = id) ∧
    ∀ r ∈ (call.reply reg).removed,
      reg.Holds r ∧ (call.apply reg).room? r.id = none ∧ (call.apply reg).roomOf? r.owner = none := by
  have hwf := h.wellFormed
  refine ⟨Call.apply_of_failed, fun r hr => ?_, fun id hid r hr => hwf.id_of_seatIn? hid hr,
    fun r hr => hwf.gone_of_removed hr⟩
  have hfound := hwf.room?_of_standing hrelists hr
  obtain ⟨o, -, ho⟩ := (room?_eq_some _).mp hfound
  exact ⟨hfound, owner_eq_apply hwf.owner_eq hrelists ho ▸ ho⟩

theorem reached_visit : ReachedBy (fun _ _ => True) (Call.run visit) :=
  (((((ReachedBy.empty.call (.logIn ⟨1⟩ [0x41] ⟨1⟩) (by decide) trivial trivial).call
    (.logIn ⟨2⟩ [0x42] ⟨2⟩) (by decide) trivial trivial).call
    (.openRoom ⟨1⟩ ⟨1⟩ plainSettings) (by decide) trivial trivial).call
    (.openRoom ⟨2⟩ ⟨2⟩ plainSettings) (by decide) trivial trivial).call
    (.changeSeat ⟨1⟩ ⟨2⟩) (by decide) trivial trivial)

/-- The visitor of `visit` logs out: its own room goes, and its host is told of as it then is. -/
theorem replies_tell_truth_visit :
    ReachedBy (fun _ _ => True) (Call.run visit) ∧
      ∃ d own host, (Call.logOut ⟨2⟩).reply (Call.run visit) = .departed d ∧
        d.ownedRoom = some own ∧ own.players = [⟨2⟩] ∧ (Call.run visit).Holds own ∧
        ((Call.run visit).logOut ⟨2⟩).2.room? own.id = none ∧
        d.leftRoom = some host ∧ host.players = [⟨1⟩] ∧
        ((Call.run visit).logOut ⟨2⟩).2.Holds host := by
  obtain ⟨-, hstanding, -, hremoved⟩ := replies_tell_truth reached_visit (.logOut ⟨2⟩) trivial
  have howned := hremoved _ (.head _)
  exact ⟨reached_visit, _, _, _, rfl, rfl, rfl, howned.1, howned.2.1, rfl, rfl,
    hstanding _ (.head _)⟩

end GameLobby.Registry
