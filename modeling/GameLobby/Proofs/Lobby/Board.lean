import GameLobby.Proofs.Lobby.Advertising
import GameLobby.Proofs.Lobby.Deliveries
import GameLobby.Proofs.Message.RoundTrip

/-!
# What observers know

A client that watches rooms keeps a board: a message that shows a room replaces the entry of its
number, and the notice that a room is gone takes the entry away. An entry is right if it is what the
room in the registry shows. A true message makes the entry that it is about right and no entry wrong
(`Right.receive`), so only rooms that calls have touched since they were last told can be wrong.
`Deed.stale` keeps the list of those, and deeds that leave none of them keep a board right
(`agrees_deeds`).
-/

namespace GameLobby

open Registry

/-! ## Boards -/

/-- What an observer of rooms knows: the payload that last showed a room, by room number. -/
abbrev Board := Table RoomId Bytes

/-- The room that a message is about. -/
def Message.about? : Message → Option RoomId
  | .gameServerData d => some ⟨d.serverId⟩
  | .removeServer notice => some ⟨notice.serverId⟩
  | _ => none

/-- What a message says about a room is so. -/
def Message.TrueOf (reg : Registry) : Message → Prop
  | .gameServerData d => ∃ r ticketId, reg.room? ⟨d.serverId⟩ = some r ∧ d = r.snapshot ticketId
  | .removeServer notice => reg.room? ⟨notice.serverId⟩ = none
  | _ => True

namespace Board

/-- The board after a message in a payload. -/
def learn (b : Board) (payload : Bytes) : Message → Board
  | .gameServerData d => b.insert ⟨d.serverId⟩ payload
  | .removeServer notice => b.erase ⟨notice.serverId⟩
  | _ => b

/-- The board after a frame. -/
def receive (b : Board) (f : OutboundFrame) : Board :=
  if f.kind = .applicationMessage then
    match Received.ofPayload f.payload with
    | .ok received => b.learn f.payload received.message
    | .error _ => b
  else b

/-- The board after some frames. -/
def receiveAll (b : Board) (fs : List OutboundFrame) : Board :=
  fs.foldl receive b

/-- A string that is cut short is no room number. -/
theorem learn_trimmed (b : Board) (payload : Bytes) (m : Message) :
    b.learn payload m.trimmed = b.learn payload m := by
  cases m <;> rfl

theorem receive_frame (b : Board) {m : Message} (h : m.fits) :
    b.receive m.frame = b.learn m.payload m := by
  have hread := Received.ofPayload_payload m (Message.short_of_fits h)
  have hkind : m.frame.kind = .applicationMessage := rfl
  have hpayload : m.frame.payload = m.payload := rfl
  unfold receive
  rw [if_pos hkind, hpayload, hread]
  exact learn_trimmed b m.payload m

/-- The entry for a room number is right. -/
def Right (b : Board) (reg : Registry) (id : RoomId) : Prop :=
  match reg.room? id with
  | none => b.get? id = none
  | some r => ∃ ticketId, b.get? id = some (Message.gameServerData (r.snapshot ticketId)).payload

/-- Every entry is right but perhaps those of some rooms. -/
def Agrees (b : Board) (reg : Registry) (stale : List RoomId) : Prop :=
  ∀ id, id ∉ stale → b.Right reg id

/-- An empty board is right but for the rooms that there are. -/
theorem agrees_empty {reg : Registry} (h : reg.Filed) :
    Board.Agrees .empty reg (reg.rooms.values.map (·.id)) := by
  intro id hid
  unfold Right
  cases hroom : reg.room? id with
  | none => rfl
  | some room =>
    exact absurd (List.mem_map.mpr ⟨room, h.mem_of_room? hroom, h.id_of_room? hroom⟩) hid

theorem Right.congr {b b' : Board} {reg reg' : Registry} {id : RoomId} (h : b.Right reg id)
    (hb : b'.get? id = b.get? id) (hreg : reg'.room? id = reg.room? id) : b'.Right reg' id := by
  unfold Right at h ⊢
  rw [hreg, hb]
  exact h

section True

variable {reg : Registry} {m : Message} (hfits : m.fits) (htrue : m.TrueOf reg)

include hfits htrue

/-- What a true message is about is right afterwards. -/
theorem right_receive_self (b : Board) {id : RoomId} (habout : m.about? = some id) :
    (b.receive m.frame).Right reg id := by
  rw [receive_frame b hfits]
  cases m with
  | gameServerData d =>
    cases habout
    obtain ⟨r, ticketId, hr, hd⟩ := htrue
    unfold Right
    rw [hr]
    exact ⟨ticketId, hd ▸ Table.get?_insert_self ..⟩
  | removeServer notice =>
    cases habout
    unfold Right
    rw [show reg.room? ⟨notice.serverId⟩ = none from htrue]
    exact Table.get?_erase_self ..
  | _ => exact nomatch habout

/-- A true message makes no entry wrong. -/
theorem Right.receive {b : Board} {id : RoomId} (h : b.Right reg id) :
    (b.receive m.frame).Right reg id := by
  by_cases habout : m.about? = some id
  · exact right_receive_self hfits htrue b habout
  · refine h.congr ?_ rfl
    rw [receive_frame b hfits]
    cases m with
    | gameServerData d =>
      exact Table.get?_insert_of_ne _ _ fun hid => habout (hid ▸ rfl)
    | removeServer notice =>
      exact Table.get?_erase_of_ne _ fun hid => habout (hid ▸ rfl)
    | _ => rfl

end True

/-- After some true messages the entries are right that were right before, and those that a message
was about. -/
theorem right_receiveAll {reg : Registry} {ms : List Message} (hfits : ∀ m ∈ ms, m.fits)
    (htrue : ∀ m ∈ ms, m.TrueOf reg) (b : Board) {id : RoomId}
    (h : b.Right reg id ∨ ∃ m ∈ ms, m.about? = some id) :
    (b.receiveAll (ms.map (·.frame))).Right reg id := by
  induction ms generalizing b with
  | nil =>
    rcases h with h | ⟨m, hm, -⟩
    · exact h
    · exact nomatch hm
  | cons m ms ih =>
    obtain ⟨hf, hfs⟩ := List.forall_mem_cons.mp hfits
    obtain ⟨ht, hts⟩ := List.forall_mem_cons.mp htrue
    refine ih hfs hts (b.receive m.frame) ?_
    rcases h with h | ⟨n, hn, habout⟩
    · exact .inl (h.receive hf ht)
    · rcases List.mem_cons.mp hn with rfl | hn
      · exact .inl (right_receive_self hf ht b habout)
      · exact .inr ⟨n, hn, habout⟩

end Board

/-! ## Observers and deeds -/

/-- A connection watches rooms and gets news at its own outbox. -/
def Registry.Watching (reg : Registry) (c : ConnectionId) : Prop :=
  ∃ a, reg.account? c = some a ∧ a.subscriptions.rooms ∧ a.outbox = c

/-- A call after which a connection does not watch rooms any more. -/
def Registry.Call.Unwatches (c : ConnectionId) : Call → Prop
  | .logOut conn => conn = c
  | .setSubscription conn .rooms false => conn = c
  | _ => False

theorem Registry.Watching.apply {reg : Registry} {c : ConnectionId} (h : reg.Watching c)
    {call : Call} (hcall : ¬ call.Unwatches c) : (call.apply reg).Watching c := by
  obtain ⟨a, ha, hrooms, houtbox⟩ := h
  have hstay : call ≠ .logOut c := by
    rintro rfl
    exact hcall rfl
  have hset : call ≠ .setSubscription c .rooms false := by
    rintro rfl
    exact hcall rfl
  obtain ⟨b, hb, hbox, hsubs⟩ := account?_apply call ha hstay
  have hkept : (call.subscriptions c a.subscriptions).get .rooms :=
    Call.get_subscriptions hset hrooms
  exact ⟨b, hb, hsubs ▸ hkept, hbox.trans houtbox⟩

/-- Who watches rooms is among those who are told about them. -/
theorem Registry.Watching.mem_recipients {reg : Registry} {c : ConnectionId} (h : reg.Watching c)
    {news : News} (htopic : news.topic = .rooms) : c ∈ news.recipients reg := by
  obtain ⟨a, ha, hrooms, houtbox⟩ := h
  unfold News.recipients Registry.subscribers
  rw [htopic]
  refine List.mem_map.mpr ⟨a, mem_ascending.mpr (List.mem_filter.mpr ⟨?_, hrooms⟩), houtbox⟩
  exact Table.mem_values_iff.mpr ⟨c, ha⟩

namespace Deed

/-- The rooms about which observer `c` may be wrong after a deed, if it may have been wrong about
some before. -/
def stale (c : ConnectionId) (reg : Registry) (rooms : List RoomId) : Deed → List RoomId
  | .call k => k.touched reg ++ rooms
  | .send conn m => if conn = c then rooms.filter (m.about? ≠ some ·) else rooms
  | .tell news => rooms.filter (news.message.about? ≠ some ·)
  | .exhibit _ _ => rooms

/-- A deed says only what is so, and does not make `c` stop watching. -/
def Honest (c : ConnectionId) (reg : Registry) : Deed → Prop
  | .call k => ¬ k.Unwatches c
  | .send _ m => m.TrueOf reg
  | .tell news => news.message.TrueOf reg
  | .exhibit _ m => m.TrueOf reg

/-- The deeds are honest, and they leave `c` wrong about no room, if it was wrong at most about
`rooms`. -/
def Informs (c : ConnectionId) : Registry → List RoomId → List Deed → Prop
  | _, rooms, [] => rooms = []
  | reg, rooms, d :: ds => d.Honest c reg ∧ Informs c (d.after reg) (d.stale c reg rooms) ds

theorem Informs.append {c : ConnectionId} {reg : Registry} {rooms : List RoomId}
    {ds es : List Deed} (h : Informs c reg rooms ds) (h' : Informs c (afterAll reg ds) [] es) :
    Informs c reg rooms (ds ++ es) := by
  induction ds generalizing reg rooms with
  | nil =>
    cases h
    exact h'
  | cons d ds ih => exact ⟨h.1, ih h.2 h'⟩

theorem Honest.watching {c : ConnectionId} {reg : Registry} {d : Deed} (h : d.Honest c reg)
    (hwatch : reg.Watching c) : (d.after reg).Watching c := by
  cases d with
  | call k => exact Watching.apply hwatch h
  | send | tell | exhibit => exact hwatch

/-- Everything that a deed offers to an observer is true. -/
theorem Honest.trueOf {c : ConnectionId} {reg : Registry} {d : Deed} {rules : Rules}
    (h : d.Honest c reg) {o : Offer} (ho : o ∈ d.offers rules reg) : o.message.TrueOf reg := by
  have hoffers : ∀ {m : Message} {recipients}, m.TrueOf reg → o ∈ m.offers recipients →
      o.message.TrueOf reg := fun hm ho => Message.message_eq_of_mem_offers ho ▸ hm
  cases d with
  | call k => exact nomatch ho
  | send conn m =>
    rw [List.mem_singleton.mp ho]
    exact h
  | tell news =>
    obtain ⟨m, hm, ho⟩ := List.mem_flatMap.mp ho
    refine hoffers ?_ ho
    rcases List.mem_cons.mp hm with rfl | hm
    · exact h
    · obtain ⟨line, rfl⟩ := News.chat_of_mem_chatLine hm
      trivial
  | exhibit recipients m => exact hoffers h ho

/-- News of a room reaches whoever watches rooms. -/
theorem offers_news {c : ConnectionId} {reg : Registry} (rules : Rules) (hwatch : reg.Watching c)
    {news : News} (hshows : (tell news).Shows reg) {id : RoomId}
    (habout : news.message.about? = some id) :
    ⟨c, news.message⟩ ∈ (tell news).offers rules reg := by
  have hoffer : ∀ {m : Message}, m = news.message → m.fits → news.topic = .rooms →
      ⟨c, m⟩ ∈ (tell news).offers rules reg := by
    intro m hm hfits htopic
    refine List.mem_flatMap.mpr ⟨m, hm ▸ List.mem_cons_self, ?_⟩
    rw [Message.offers_of_fits hfits]
    exact List.mem_map.mpr ⟨c, hwatch.mem_recipients htopic, rfl⟩
  cases news with
  | roomUpdated d => exact hoffer rfl hshows rfl
  | roomRemoved notice => exact hoffer rfl (Message.fits_removeServer notice) rfl
  | loggedIn | loggedOut | chatPosted => exact nomatch habout

section Agrees

variable {c : ConnectionId}

/-- A deed leaves a board right but for the rooms that it makes stale. -/
theorem agrees_deed (rules : Rules) {reg : Registry} {d : Deed} {b : Board} {rooms : List RoomId}
    (hwf : reg.WellFormed) (hwatch : reg.Watching c) (hhonest : d.Honest c reg)
    (hshows : d.Shows reg) (hfits : ∀ m ∈ Offer.messagesFor c (d.offers rules reg), m.fits)
    (hb : b.Agrees reg rooms) :
    (b.receiveAll ((Offer.messagesFor c (d.offers rules reg)).map (·.frame))).Agrees (d.after reg)
      (d.stale c reg rooms) := by
  have htrue : ∀ m ∈ Offer.messagesFor c (d.offers rules reg), m.TrueOf reg := fun m hm =>
    hhonest.trueOf (Offer.mem_messagesFor.mp hm)
  intro id hid
  cases d with
  | call k =>
    have hrooms : id ∉ rooms := fun hmem => hid (List.mem_append_right _ hmem)
    have htouched : id ∉ k.touched reg := fun hmem => hid (List.mem_append_left _ hmem)
    exact (hb id hrooms).congr rfl (hwf.room?_apply k htouched)
  | send conn m =>
    refine Board.right_receiveAll hfits htrue b ?_
    by_cases hrooms : id ∈ rooms
    · -- the message is for `c` and about this room
      right
      by_cases hc : conn = c
      · subst hc
        have habout : m.about? = some id := by
          simpa [stale, hrooms] using hid
        exact ⟨m, Offer.mem_messagesFor.mpr (List.mem_singleton_self _), habout⟩
      · exact absurd hrooms (by simpa [stale, hc] using hid)
    · exact .inl (hb id hrooms)
  | tell news =>
    refine Board.right_receiveAll hfits htrue b ?_
    by_cases hrooms : id ∈ rooms
    · right
      have habout : news.message.about? = some id := by
        simpa [stale, hrooms] using hid
      exact ⟨_, Offer.mem_messagesFor.mpr (offers_news rules hwatch hshows habout), habout⟩
    · exact .inl (hb id hrooms)
  | exhibit recipients m => exact Board.right_receiveAll hfits htrue b (.inl (hb id hid))

/-- Deeds that keep an observer informed keep its board right. -/
theorem agrees_deeds (rules : Rules) {conn : ConnectionId} {reg : Registry} {ds : List Deed}
    {b : Board} {rooms : List RoomId} (hinforms : Informs c reg rooms ds)
    (hown : Each (Own conn) reg ds)
    (hshows : Each Shows reg ds) (hwf : reg.WellFormed) (hwatch : reg.Watching c)
    (hfits : ∀ m ∈ Offer.messagesFor c (offersAll rules reg ds), m.fits)
    (hb : b.Agrees reg rooms) :
    (b.receiveAll ((Offer.messagesFor c (offersAll rules reg ds)).map (·.frame))).Agrees
        (afterAll reg ds) [] ∧
      (afterAll reg ds).Watching c := by
  induction ds generalizing reg b rooms with
  | nil =>
    obtain rfl : rooms = [] := hinforms
    exact ⟨hb, hwatch⟩
  | cons d ds ih =>
    have hoffers : offersAll rules reg (d :: ds) =
        d.offers rules reg ++ offersAll rules (d.after reg) ds := rfl
    rw [hoffers, Offer.messagesFor_append] at hfits ⊢
    rw [List.map_append]
    have hfirst := agrees_deed rules hwf hwatch hinforms.1 hshows.1
      (fun m hm => hfits m (List.mem_append_left _ hm)) hb
    have hwf' : (d.after reg).WellFormed := by
      cases d with
      | call k => exact hwf.apply hown.1.2.2.1 hown.1.2.1.relists
      | send | tell | exhibit => exact hwf
    have hrest := ih hinforms.2 hown.2 hshows.2 hwf' (hinforms.1.watching hwatch)
      (fun m hm => hfits m (List.mem_append_right _ hm)) hfirst
    refine ⟨?_, hrest.2⟩
    unfold Board.receiveAll at hrest ⊢
    rw [List.foldl_append]
    exact hrest.1

end Agrees

end Deed

end GameLobby
