import GameLobby.Proofs.Registry.Replies
import GameLobby.Proofs.Registry.Users

/-!
# Numbers in the order of a run

Users and rooms are numbered alike, and `Registry.Numbering` stands for either: a counter, the
numbers of what connections have, and the numbers that replies give and take back. A call gives the
next number or none (`Numbering.Count`), so after any calls the numbers given are 1, 2, 3 and so on,
as long as the counter has not come round (`Numbering.Counted`). Where calls leave numbers alone
that were given, each gives the next number, takes one back, or does neither (`Numbering.Step`), and
those in use are the ones that were not taken back (`Numbering.Accounted`). No call touches the
number of a user. That of a room can be edited, and only edits that keep it (`Call.KeepsId`) are
such calls.

Main statement: `numbers_in_order`.
-/

namespace GameLobby.Registry

/-! ## The replies of a run -/

/-- The replies to calls, each made in the registry that those before it lead to. -/
def Call.repliesFrom (reg : Registry) : List Call → List Reply
  | [] => []
  | call :: calls => call.reply reg :: repliesFrom (call.apply reg) calls

/-- The replies to calls, from the registry in which there is nothing. -/
def Call.replies (calls : List Call) : List Reply :=
  repliesFrom .empty calls

theorem Call.replies_snoc (calls : List Call) (call : Call) :
    replies (calls ++ [call]) = replies calls ++ [call.reply (run calls)] := by
  suffices h : ∀ reg : Registry, repliesFrom reg (calls ++ [call]) =
      repliesFrom reg calls ++ [call.reply (calls.foldl Call.apply reg)] from h .empty
  induction calls with
  | nil => exact fun _ => rfl
  | cons first calls ih => exact fun reg => congrArg (first.reply reg :: ·) (ih _)

/-! ## Order -/

section Order

variable {α : Type} {num : α → UInt32}

/-- Everything with `P` stands in `l` once, and numbers go up from one to the next. -/
structure InOrder (num : α → UInt32) (P : α → Prop) (l : List α) : Prop where
  mem_iff : ∀ a, a ∈ l ↔ P a
  up : l.Pairwise (num · < num ·)

theorem inOrder_ascending {P : α → Prop} {l : List α}
    (hkeys : (l.map fun a => (num a).toNat).Nodup) (hmem : ∀ a, a ∈ l ↔ P a) :
    InOrder num P (ascending (fun a => (num a).toNat) l) where
  mem_iff a := mem_ascending.trans (hmem a)
  up := (ascending_pairwise_lt hkeys).imp UInt32.lt_iff_toNat_lt.mpr

end Order

/-! ## Numberings -/

/-- How things of one kind are numbered. -/
structure Numbering where
  /-- The last number given. -/
  counter : Registry → UInt32
  /-- The number of what a connection has. -/
  number? : Registry → ConnectionId → Option UInt32
  /-- The number of what is new with a reply. -/
  given? : Reply → Option UInt32
  /-- The number of what is gone with a reply. -/
  ended? : Reply → Option UInt32

namespace Numbering

/-- The numbers of users. -/
def users : Numbering where
  counter reg := reg.lastUid
  number? reg c := (reg.uid? c).map (·.number)
  given?
    | .user uid => some uid.number
    | _ => none
  ended?
    | .departed d => some d.account.uid.number
    | _ => none

/-- The numbers of rooms, each of which is its owner's. -/
def rooms : Numbering where
  counter reg := reg.lastRoomId
  number? reg c := (reg.roomId? c).map (·.number)
  given?
    | .opened r => some r.id.number
    | _ => none
  ended?
    | .closed r => some r.id.number
    | .departed d => d.ownedRoom.map (·.id.number)
    | _ => none

variable (s : Numbering)

/-- The numbers that calls gave, in their order. -/
def given (calls : List Call) : List UInt32 :=
  (Call.replies calls).filterMap s.given?

/-- The numbers that calls took back. -/
def ended (calls : List Call) : List UInt32 :=
  (Call.replies calls).filterMap s.ended?

theorem given_snoc (calls : List Call) (call : Call) :
    s.given (calls ++ [call]) =
      s.given calls ++ (s.given? (call.reply (Call.run calls))).toList := by
  rw [given, given, Call.replies_snoc, List.filterMap_append]
  rfl

theorem ended_snoc (calls : List Call) (call : Call) :
    s.ended (calls ++ [call]) =
      s.ended calls ++ (s.ended? (call.reply (Call.run calls))).toList := by
  rw [ended, ended, Call.replies_snoc, List.filterMap_append]
  rfl

/-- Neither a number nor the end of one comes with a reply. -/
def Silent (reply : Reply) : Prop :=
  s.given? reply = none ∧ s.ended? reply = none

/-- What a call with a reply does to the counter: nothing, or it gives the next number. -/
inductive Count (reg : Registry) (reply : Reply) (reg' : Registry) : Prop where
  | same (hgiven : s.given? reply = none) (hcounter : s.counter reg' = s.counter reg)
  | next (hgiven : s.given? reply = some (s.counter reg + 1))
      (hcounter : s.counter reg' = s.counter reg + 1)

/-- What a call with a reply does to the numbers: nothing, a connection that has none gets the next,
or a connection loses its own. -/
inductive Step (reg : Registry) (reply : Reply) (reg' : Registry) : Prop where
  | kept (hgiven : s.given? reply = none) (hended : s.ended? reply = none)
      (hcounter : s.counter reg' = s.counter reg)
      (hnumber : ∀ c, s.number? reg' c = s.number? reg c)
  | came (conn : ConnectionId) (hfree : s.number? reg conn = none)
      (hgiven : s.given? reply = some (s.counter reg + 1)) (hended : s.ended? reply = none)
      (hcounter : s.counter reg' = s.counter reg + 1)
      (hnumber : ∀ c, s.number? reg' c =
        if c = conn then some (s.counter reg + 1) else s.number? reg c)
  | went (conn : ConnectionId) (n : UInt32) (hheld : s.number? reg conn = some n)
      (hgiven : s.given? reply = none) (hended : s.ended? reply = some n)
      (hcounter : s.counter reg' = s.counter reg)
      (hnumber : ∀ c, s.number? reg' c = if c = conn then none else s.number? reg c)

/-- Every call counts on, every call of the kind that leaves numbers alone makes such a step, and at
first there is nothing with a number. -/
structure Lawful (allowed : Call → Prop) : Prop where
  counter_empty : s.counter .empty = 0
  number?_empty : ∀ c, s.number? .empty c = none
  count : ∀ (reg : Registry) (call : Call), s.Count reg (call.reply reg) (call.apply reg)
  step : ∀ (reg : Registry) (call : Call), allowed call →
    s.Step reg (call.reply reg) (call.apply reg)

/-- The numbers `given` are 1, 2, 3 and so on, and the counter is at the last of them. -/
structure Counted (reg : Registry) (given : List UInt32) : Prop where
  counter_eq : (s.counter reg).toNat = given.length
  given_eq : given.map UInt32.toNat = List.range' 1 given.length

/-- The numbers `given` and `ended` account for those in use in `reg`: those that are not ended
belong to one connection each. -/
structure Accounted (reg : Registry) (given ended : List UInt32) : Prop
    extends s.Counted reg given where
  number?_inj : ∀ {c d n}, s.number? reg c = some n → s.number? reg d = some n → c = d
  ended_given : ∀ n ∈ ended, n ∈ given
  inUse_iff : ∀ n, (∃ c, s.number? reg c = some n) ↔ n ∈ given ∧ n ∉ ended

variable {s} {allowed : Call → Prop} {reg reg' : Registry} {given ended : List UInt32}

theorem Step.count {reply : Reply} (h : s.Step reg reply reg') : s.Count reg reply reg' := by
  cases h with
  | kept hgiven _ hcounter _ => exact .same hgiven hcounter
  | came _ _ hgiven _ hcounter _ => exact .next hgiven hcounter
  | went _ _ _ hgiven _ hcounter _ => exact .same hgiven hcounter

/-- A call that takes away what a connection has, if it has something. -/
theorem Step.of_removed {reply : Reply} (conn : ConnectionId)
    (hgiven : s.given? reply = none) (hended : s.ended? reply = s.number? reg conn)
    (hcounter : s.counter reg' = s.counter reg)
    (hnumber : ∀ c, s.number? reg' c = if c = conn then none else s.number? reg c) :
    s.Step reg reply reg' := by
  cases hheld : s.number? reg conn with
  | none =>
    refine .kept hgiven (hended.trans hheld) hcounter fun c => ?_
    rw [hnumber]
    split
    · rename_i hc
      rw [hc, hheld]
    · rfl
  | some n => exact .went conn n hheld hgiven (hended.trans hheld) hcounter hnumber

theorem Counted.step (h : s.Counted reg given) {reply : Reply} (hcount : s.Count reg reply reg')
    (hlt : given.length < UInt32.size - 1) :
    s.Counted reg' (given ++ (s.given? reply).toList) := by
  cases hcount with
  | same hgiven hcounter =>
    rw [hgiven, Option.toList_none, List.append_nil]
    exact ⟨hcounter ▸ h.counter_eq, h.given_eq⟩
  | next hgiven hcounter =>
    rw [hgiven, Option.toList_some]
    have hnext : (s.counter reg + 1).toNat = given.length + 1 := by
      rw [toNat_next (h.counter_eq ▸ hlt), h.counter_eq]
    refine ⟨?_, ?_⟩
    · rw [hcounter, hnext, List.length_append, List.length_singleton]
    · rw [List.map_append, h.given_eq, List.length_append, List.length_singleton,
        List.range'_1_concat, List.map_singleton, hnext, Nat.add_comm 1]

theorem Counted.le_of_given (h : s.Counted reg given) {n : UInt32} (hn : n ∈ given) :
    n.toNat ≤ (s.counter reg).toNat := by
  have hmem : n.toNat ∈ List.range' 1 given.length := by
    rw [← h.given_eq]
    exact List.mem_map.mpr ⟨n, hn, rfl⟩
  rw [h.counter_eq]
  have hlt := (List.mem_range'_1.mp hmem).2
  omega

/-- The next number was not given before. -/
theorem Counted.not_given_next (h : s.Counted reg given) (hlt : given.length < UInt32.size - 1) :
    s.counter reg + 1 ∉ given := by
  intro hmem
  have hle := h.le_of_given hmem
  rw [toNat_next (h.counter_eq ▸ hlt)] at hle
  omega

theorem Accounted.ne_next (h : s.Accounted reg given ended)
    (hlt : given.length < UInt32.size - 1) (c : ConnectionId) :
    s.number? reg c ≠ some (s.counter reg + 1) := fun hc =>
  h.not_given_next hlt ((h.inUse_iff _).mp ⟨c, hc⟩).1

/-- Where a connection without a number gets one, it is in use, and so is what was. -/
theorem inUse_of_came {conn : ConnectionId} {k : UInt32} (hfree : s.number? reg conn = none)
    (hnumber : ∀ c, s.number? reg' c = if c = conn then some k else s.number? reg c)
    (n : UInt32) :
    (∃ c, s.number? reg' c = some n) ↔ (∃ c, s.number? reg c = some n) ∨ n = k := by
  simp only [hnumber]
  constructor
  · rintro ⟨c, hc⟩
    split at hc
    · exact .inr (Option.some.inj hc).symm
    · exact .inl ⟨c, hc⟩
  · rintro (⟨c, hc⟩ | rfl)
    · refine ⟨c, ?_⟩
      rw [if_neg]
      · exact hc
      · rintro rfl
        rw [hfree] at hc
        cases hc
    · exact ⟨conn, if_pos rfl⟩

/-- Where a connection loses its number, the others are still in use. -/
theorem Accounted.inUse_of_went (h : s.Accounted reg given ended) {conn : ConnectionId}
    {m : UInt32} (hheld : s.number? reg conn = some m)
    (hnumber : ∀ c, s.number? reg' c = if c = conn then none else s.number? reg c) (n : UInt32) :
    (∃ c, s.number? reg' c = some n) ↔ (∃ c, s.number? reg c = some n) ∧ n ≠ m := by
  simp only [hnumber]
  constructor
  · rintro ⟨c, hc⟩
    split at hc
    · cases hc
    · rename_i hne
      exact ⟨⟨c, hc⟩, fun hnm => hne (h.number?_inj hc (hnm ▸ hheld))⟩
  · rintro ⟨⟨c, hc⟩, hne⟩
    refine ⟨c, ?_⟩
    rw [if_neg]
    · exact hc
    · rintro rfl
      exact hne (Option.some.inj (hc.symm.trans hheld))

/-- A step keeps numbers accounted for. -/
theorem Accounted.step (h : s.Accounted reg given ended) {reply : Reply}
    (hstep : s.Step reg reply reg') (hlt : given.length < UInt32.size - 1) :
    s.Accounted reg' (given ++ (s.given? reply).toList) (ended ++ (s.ended? reply).toList) := by
  have hcounted := h.toCounted.step hstep.count hlt
  cases hstep with
  | kept hgiven hended hcounter hnumber =>
    rw [hgiven] at hcounted
    rw [hgiven, hended]
    simp only [Option.toList_none, List.append_nil] at hcounted ⊢
    refine ⟨hcounted, fun hc hd => ?_, h.ended_given, fun n => ?_⟩
    · exact h.number?_inj (hnumber _ ▸ hc) (hnumber _ ▸ hd)
    · simp only [hnumber]
      exact h.inUse_iff n
  | came conn hfree hgiven hended hcounter hnumber =>
    rw [hgiven] at hcounted
    rw [hgiven, hended]
    simp only [Option.toList_some, Option.toList_none, List.append_nil] at hcounted ⊢
    have hnew := h.not_given_next hlt
    have hfresh := h.ne_next hlt
    refine ⟨hcounted, fun {c d n} hc hd => ?_,
      fun n hn => List.mem_append_left _ (h.ended_given n hn), fun n => ?_⟩
    · rw [hnumber] at hc hd
      split at hc <;> split at hd
      · rename_i hcc hdc
        rw [hcc, hdc]
      · cases hc
        exact absurd hd (hfresh d)
      · cases hd
        exact absurd hc (hfresh c)
      · exact h.number?_inj hc hd
    · rw [inUse_of_came hfree hnumber, h.inUse_iff, List.mem_append, List.mem_singleton,
        or_and_right]
      -- the next number was never given, so it was not taken back
      refine or_congr_right (iff_self_and.mpr ?_)
      rintro rfl hend
      exact hnew (h.ended_given _ hend)
  | went conn m hheld hgiven hended hcounter hnumber =>
    rw [hgiven] at hcounted
    rw [hgiven, hended]
    simp only [Option.toList_some, Option.toList_none, List.append_nil] at hcounted ⊢
    refine ⟨hcounted, fun {c d n} hc hd => ?_, fun n hn => ?_, fun n => ?_⟩
    · rw [hnumber] at hc hd
      split at hc
      · cases hc
      · split at hd
        · cases hd
        · exact h.number?_inj hc hd
    · rcases List.mem_append.mp hn with hn | hn
      · exact h.ended_given n hn
      · rw [List.mem_singleton.mp hn]
        exact ((h.inUse_iff m).mp ⟨conn, hheld⟩).1
    · rw [h.inUse_of_went hheld hnumber, h.inUse_iff, List.mem_append, List.mem_singleton, not_or,
        and_assoc]

theorem length_given_of_snoc {calls : List Call} {call : Call} {n : Nat}
    (hlt : (s.given (calls ++ [call])).length < n) : (s.given calls).length < n := by
  rw [given_snoc, List.length_append] at hlt
  exact Nat.lt_of_le_of_lt (Nat.le_add_right ..) hlt

/-- After any calls the numbers given are counted, if they have not run out. -/
theorem Lawful.counted (hs : s.Lawful allowed) {calls : List Call}
    (hlt : (s.given calls).length < UInt32.size - 1) :
    s.Counted (Call.run calls) (s.given calls) := by
  induction calls using Call.snoc_induction with
  | nil => exact ⟨congrArg UInt32.toNat hs.counter_empty, rfl⟩
  | snoc calls call ih =>
    have hbefore := length_given_of_snoc hlt
    rw [given_snoc, Call.run_snoc]
    exact (ih hbefore).step (hs.count _ call) hbefore

/-- After calls that leave numbers alone the numbers are accounted for, if they have not run out. -/
theorem Lawful.accounted (hs : s.Lawful allowed) {calls : List Call}
    (hallowed : ∀ call ∈ calls, allowed call)
    (hlt : (s.given calls).length < UInt32.size - 1) :
    s.Accounted (Call.run calls) (s.given calls) (s.ended calls) := by
  induction calls using Call.snoc_induction with
  | nil =>
    refine ⟨⟨congrArg UInt32.toNat hs.counter_empty, rfl⟩, fun {c d n} hc => ?_, nofun, fun n => ?_⟩
    · cases (hs.number?_empty c).symm.trans hc
    · refine iff_of_false ?_ fun hn => nomatch hn.1
      rintro ⟨c, hc⟩
      cases (hs.number?_empty c).symm.trans hc
  | snoc calls call ih =>
    have hbefore := length_given_of_snoc hlt
    have haccounted := ih (fun c hc => hallowed c (List.mem_append_left _ hc)) hbefore
    rw [given_snoc, ended_snoc, Call.run_snoc]
    exact haccounted.step
      (hs.step _ call (hallowed call (List.mem_append_right _ List.mem_cons_self))) hbefore

/-! ## Listings -/

section Listings

variable {α : Type} {num : α → UInt32} {t : Table ConnectionId α}

theorem Accounted.nodup_keys (h : s.Accounted reg given ended)
    (hnum : ∀ c, s.number? reg c = (t.get? c).map num) :
    (t.values.map fun a => (num a).toNat).Nodup :=
  Table.nodup_map_values fun {c d a b} ha hb heq => by
    have hc : s.number? reg c = some (num a) := by rw [hnum, ha, Option.map_some]
    have hd : s.number? reg d = some (num b) := by rw [hnum, hb, Option.map_some]
    exact h.number?_inj hc (UInt32.toNat_inj.mp heq ▸ hd)

theorem Accounted.given_up (h : s.Accounted reg given ended) : given.Pairwise (· < ·) := by
  have hrange : (given.map UInt32.toNat).Pairwise (· < ·) :=
    h.given_eq ▸ List.pairwise_lt_range'
  exact (List.pairwise_map.mp hrange).imp UInt32.lt_iff_toNat_lt.mpr

/-- A listing by number shows the numbers given that were not taken back. -/
theorem Accounted.map_ascending (h : s.Accounted reg given ended)
    (hnum : ∀ c, s.number? reg c = (t.get? c).map num) :
    (ascending (fun a => (num a).toNat) t.values).map num = given.filter (· ∉ ended) := by
  have hshown : ((ascending (fun a => (num a).toNat) t.values).map num).Pairwise (· < ·) :=
    List.pairwise_map.mpr (inOrder_ascending (h.nodup_keys hnum) fun _ => Iff.rfl).up
  have hleft := h.given_up.filter (· ∉ ended)
  -- both go up, so that it is enough that they have the same numbers
  refine List.Perm.eq_of_pairwise (fun _ _ _ _ hlt hgt => absurd hgt (UInt32.lt_asymm hlt))
    hshown hleft ((List.perm_ext_iff_of_nodup (hshown.imp UInt32.ne_of_lt)
      (hleft.imp UInt32.ne_of_lt)).mpr fun n => ?_)
  rw [List.mem_filter, decide_eq_true_iff, ← h.inUse_iff, List.mem_map]
  simp only [mem_ascending, Table.mem_values_iff, hnum, Option.map_eq_some_iff]
  constructor
  · rintro ⟨a, ⟨c, hc⟩, hn⟩
    exact ⟨c, a, hc, hn⟩
  · rintro ⟨c, a, hc, hn⟩
    exact ⟨a, ⟨c, hc⟩, hn⟩

end Listings

/-! ## Users -/

theorem users_silent {call : Call} (hcall : call.SparesUsers) (reg : Registry) :
    users.Silent (call.reply reg) := by
  cases call with
  | logIn | logOut => exact hcall.elim
  | closeRoom | updateRoom =>
    exact Reply.of_ofOption (P := users.Silent) ⟨rfl, rfl⟩ (fun _ => ⟨rfl, rfl⟩) _
  | setSubscription | openRoom | takeSeat | changeSeat | leaveSeat =>
    exact Reply.of_ofExcept (P := users.Silent) (fun _ => ⟨rfl, rfl⟩) (fun _ => ⟨rfl, rfl⟩) _

theorem users_step (reg : Registry) (call : Call) :
    users.Step reg (call.reply reg) (call.apply reg) := by
  have hspared : call.SparesUsers → users.Step reg (call.reply reg) (call.apply reg) :=
    fun hcall =>
      .kept (users_silent hcall reg).1 (users_silent hcall reg).2 (hcall.sameUsers reg).lastUid_eq
        fun c => congrArg (Option.map _) ((hcall.sameUsers reg).uid?_eq c)
  cases call with
  | logIn conn name outbox =>
    rcases logIn_cases reg conn name outbox with ⟨e, heq⟩ | ⟨hnone, heq⟩
    · refine .kept ?_ ?_ ?_ fun c => ?_ <;> simp only [Call.reply, Call.apply, heq] <;> rfl
    · refine .came conn ?_ ?_ ?_ (congrArg (·.2.lastUid) heq) fun c => ?_
      · simp [users, uid?, hnone]
      · simp only [Call.reply, heq]
        rfl
      · simp only [Call.reply, heq]
        rfl
      · show ((reg.logIn conn name outbox).2.uid? c).map (·.number) = _
        rw [uid?_logIn hnone]
        split <;> rfl
  | logOut conn =>
    refine .of_removed conn ?_ ?_ (SameAccounts.logOut reg conn).lastUid_eq fun c => ?_
    · exact Reply.of_ofOption (P := (users.given? · = none)) rfl (fun _ => rfl) _
    · rcases logOut_cases reg conn with ⟨hnone, heq⟩ | ⟨a, ha, hanswer, -⟩
      · simp only [Call.reply, heq]
        simp [users, uid?, hnone, Reply.ofOption]
      · simp only [Call.reply, hanswer]
        simp [users, uid?, ha, Reply.ofOption]
    · show ((reg.logOut conn).2.uid? c).map (·.number) = _
      rw [uid?_logOut]
      split <;> rfl
  | setSubscription | openRoom | closeRoom | updateRoom | takeSeat | changeSeat | leaveSeat =>
    exact hspared trivial

theorem users_lawful : users.Lawful fun _ => True where
  counter_empty := rfl
  number?_empty _ := rfl
  count reg call := (users_step reg call).count
  step reg call _ := users_step reg call

/-! ## Rooms -/

theorem rooms_silent {call : Call} (hcall : call.SparesRooms) (reg : Registry) :
    rooms.Silent (call.reply reg) := by
  cases call with
  | logOut | openRoom | closeRoom => exact hcall.elim
  | updateRoom => exact Reply.of_ofOption (P := rooms.Silent) ⟨rfl, rfl⟩ (fun _ => ⟨rfl, rfl⟩) _
  | logIn | setSubscription | takeSeat | changeSeat | leaveSeat =>
    exact Reply.of_ofExcept (P := rooms.Silent) (fun _ => ⟨rfl, rfl⟩) (fun _ => ⟨rfl, rfl⟩) _

theorem number?_closeRoom (reg : Registry) (conn c : ConnectionId) :
    rooms.number? (reg.closeRoom conn).2 c = if c = conn then none else rooms.number? reg c := by
  show ((reg.closeRoom conn).2.roomId? c).map (·.number) = _
  rw [roomId?_closeRoom]
  split <;> rfl

theorem rooms_step (reg : Registry) {call : Call} (hkeeps : call.KeepsId) :
    rooms.Step reg (call.reply reg) (call.apply reg) := by
  have hspared : call.SparesRooms → rooms.Step reg (call.reply reg) (call.apply reg) :=
    fun hcall =>
      .kept (rooms_silent hcall reg).1 (rooms_silent hcall reg).2
        (hcall.sameRooms reg).lastRoomId_eq
        fun c => congrArg (Option.map _) ((hcall.sameRooms reg).roomId?_eq c)
  cases call with
  | openRoom conn ownerUid settings =>
    rcases openRoom_cases reg conn ownerUid settings with ⟨e, heq⟩ | ⟨hnone, heq⟩
    · refine .kept ?_ ?_ ?_ fun c => ?_ <;> simp only [Call.reply, Call.apply, heq] <;> rfl
    · refine .came conn ?_ ?_ ?_ (congrArg (·.2.lastRoomId) heq) fun c => ?_
      · simp [rooms, roomId?, hnone]
      · simp only [Call.reply, heq]
        rfl
      · simp only [Call.reply, heq]
        rfl
      · show ((reg.openRoom conn ownerUid settings).2.roomId? c).map (·.number) = _
        rw [roomId?_openRoom hnone]
        split <;> rfl
  | closeRoom conn =>
    refine .of_removed conn ?_ ?_ lastRoomId_closeRoom (number?_closeRoom reg conn)
    · exact Reply.of_ofOption (P := (rooms.given? · = none)) rfl (fun _ => rfl) _
    · show rooms.ended? (.ofOption .closed (reg.closeRoom conn).1) = _
      rw [closeRoom_fst]
      cases hroom : reg.roomOf? conn <;> simp [rooms, roomId?, hroom, Reply.ofOption]
  | logOut conn =>
    rcases logOut_cases reg conn with ⟨-, heq⟩ | ⟨a, ha, hanswer, -⟩
    · refine .kept ?_ ?_ ?_ fun c => ?_ <;> simp only [Call.reply, Call.apply, heq] <;> rfl
    · -- only the room of the account goes; the room in which it was a guest stays
      have hsame := SameRooms.logOut reg ha
      refine .of_removed conn ?_ ?_ (hsame.lastRoomId_eq.trans lastRoomId_closeRoom) fun c => ?_
      · exact Reply.of_ofOption (P := (rooms.given? · = none)) rfl (fun _ => rfl) _
      · simp only [Call.reply, hanswer]
        show (reg.roomOf? conn).map (·.id.number) = ((reg.roomOf? conn).map (·.id)).map (·.number)
        rw [Option.map_map]
        rfl
      · exact (congrArg (Option.map _) (hsame.roomId?_eq c)).trans (number?_closeRoom _ conn c)
  | logIn | setSubscription | updateRoom | takeSeat | changeSeat | leaveSeat =>
    exact hspared hkeeps

/-- An edit of a room, even one of its number, gives no number and takes none. -/
theorem rooms_lawful : rooms.Lawful Call.KeepsId where
  counter_empty := rfl
  number?_empty _ := rfl
  count reg call := by
    by_cases hkeeps : call.KeepsId
    · exact (rooms_step reg hkeeps).count
    · cases call with
      | updateRoom conn edit =>
        refine .same (Reply.of_ofOption (P := (rooms.given? · = none)) rfl (fun _ => rfl) _) ?_
        show (reg.updateRoom conn edit).2.lastRoomId = reg.lastRoomId
        unfold updateRoom
        dsimp only
        split <;> rfl
      | _ => exact absurd trivial hkeeps
  step reg call := rooms_step reg

end Numbering

/-! ## Runs -/

/-- Accounts are filed under their connections after any calls. -/
theorem conn_run {calls : List Call} {c : ConnectionId} {a : Account}
    (ha : (Call.run calls).account? c = some a) : a.conn = c := by
  induction calls using Call.snoc_induction generalizing a with
  | nil => cases ha
  | snoc calls call ih =>
    rw [Call.run_snoc] at ha
    cases hb : (Call.run calls).account? c with
    | none =>
      rcases account?_apply_of_none call hb with hnone | ⟨name, outbox, -, hcame⟩
      · cases hnone.symm.trans ha
      · cases hcame.symm.trans ha
        rfl
    | some b =>
      by_cases hout : call = .logOut c
      · subst hout
        have hgone := uid?_logOut (Call.run calls) c c
        have hout : ((Call.run calls).logOut c).2.account? c = some a := ha
        rw [if_pos rfl, uid?, hout] at hgone
        cases hgone
      · obtain ⟨j, hj⟩ := account?_apply_eq call hb hout
        cases hj.symm.trans ha
        exact (ih hb : b.conn = c)

theorem mem_accounts_run_iff {calls : List Call} {a : Account} :
    a ∈ (Call.run calls).accounts.values ↔ (Call.run calls).account? a.conn = some a := by
  rw [Table.mem_values_iff]
  constructor
  · rintro ⟨c, hc⟩
    exact (conn_run hc).symm ▸ hc
  · exact fun ha => ⟨_, ha⟩

/-- Rooms are found by their numbers after calls that keep them, if those have not run out. -/
theorem findable_run {calls : List Call} (hkeeps : ∀ call ∈ calls, call.KeepsId)
    (hlt : (Numbering.rooms.given calls).length < UInt32.size - 1) :
    (Call.run calls).Findable := by
  induction calls using Call.snoc_induction with
  | nil => exact findable_empty
  | snoc calls call ih =>
    have hbefore := Numbering.length_given_of_snoc hlt
    have hkept : ∀ c ∈ calls, c.KeepsId := fun c hc => hkeeps c (List.mem_append_left _ hc)
    have hfresh := (Numbering.rooms_lawful.accounted hkept hbefore).ne_next hbefore
    rw [Call.run_snoc]
    refine (ih hkept hbefore).apply
      (hkeeps call (List.mem_append_right _ List.mem_cons_self)) fun c hc => hfresh c ?_
    show ((Call.run calls).roomId? c).map (·.number) = _
    rw [hc]
    rfl

/-- What the numbers of users and rooms are after calls. -/
structure Enumerated (calls : List Call) : Prop where
  /-- The logins that went through got 1, 2, 3 and so on. -/
  uids : (Numbering.users.given calls).map (·.toNat) =
    List.range' 1 (Numbering.users.given calls).length
  /-- And so did the rooms that were offered. -/
  roomIds : (Numbering.rooms.given calls).map (·.toNat) =
    List.range' 1 (Numbering.rooms.given calls).length
  /-- The census has the last number given to a user. -/
  lastUid : (Call.run calls).census.lastUid.toNat = (Numbering.users.given calls).length
  /-- It counts who is there, -/
  users : (Call.run calls).census.users = (Call.run calls).accountsInOrder.length
  /-- and the rooms. -/
  rooms : (Call.run calls).census.rooms = (Call.run calls).roomsInOrder.length
  /-- Users are listed but for those who logged out. -/
  present : (Call.run calls).accountsInOrder.map (·.uid.number) =
    (Numbering.users.given calls).filter (· ∉ Numbering.users.ended calls)
  accounts : InOrder (·.uid.number) (fun a => (Call.run calls).account? a.conn = some a)
    (Call.run calls).accountsInOrder
  subscribers : ∀ t, InOrder (·.uid.number)
    (fun a => (Call.run calls).account? a.conn = some a ∧ a.subscriptions.get t)
    ((Call.run calls).subscribers t)
  /-- Every room is listed once, whatever its owner made of it, and none before one with a smaller
  number. -/
  listing : (Call.run calls).roomsInOrder.Perm (Call.run calls).rooms.values ∧
    (Call.run calls).roomsInOrder.Pairwise (·.id.number ≤ ·.id.number)
  /-- Where owners leave the numbers of their rooms as they are, these are listed but for those that
  were closed. -/
  offered : (∀ call ∈ calls, call.KeepsId) → (Call.run calls).roomsInOrder.map (·.id.number) =
    (Numbering.rooms.given calls).filter (· ∉ Numbering.rooms.ended calls)
  roomsInOrder : (∀ call ∈ calls, call.KeepsId) →
    InOrder (·.id.number) (fun r => (Call.run calls).room? r.id = some r)
      (Call.run calls).roomsInOrder

/-- An owner that gives its room the number of another has both listed under it. -/
example : (Call.run [.openRoom ⟨1⟩ ⟨9⟩ plainSettings, .openRoom ⟨2⟩ ⟨9⟩ plainSettings,
    .updateRoom ⟨2⟩ fun r => { r with id := ⟨1⟩ }]).roomsInOrder.map (·.id.number) = [1, 1] :=
  rfl

/-- The first user logs in twice, to no avail the second time, offers a room and leaves with it. The
second offers a room and watches the chat, and the first comes back. -/
def comeback : List Call :=
  [.logIn ⟨1⟩ [0x41] ⟨1⟩, .logIn ⟨1⟩ [0x41] ⟨1⟩, .openRoom ⟨1⟩ ⟨1⟩ plainSettings,
    .logIn ⟨2⟩ [0x42] ⟨2⟩, .logOut ⟨1⟩, .openRoom ⟨2⟩ ⟨2⟩ plainSettings,
    .setSubscription ⟨2⟩ .chat true, .logIn ⟨1⟩ [0x41] ⟨1⟩]

theorem comeback_keeps_ids : ∀ call ∈ comeback, call.KeepsId := by
  simp only [comeback, List.forall_mem_cons, List.not_mem_nil]
  exact ⟨trivial, trivial, trivial, trivial, trivial, trivial, trivial, trivial, nofun⟩

end GameLobby.Registry
