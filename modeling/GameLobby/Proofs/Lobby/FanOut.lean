import GameLobby.Proofs.Lobby.Deliveries

/-!
# Fan-out

News makes a script of messages (`News.script`), and each message that fits a frame is offered once
for each account that watches for such news (`News.offers_eq`). An outbox gets what is offered to
it and nothing else, so what it holds afterwards can be told from what it held before, however full
or closed the others are (`Outboxes.get?_publish`). Accounts may share an outbox here. Main
statement: `Outboxes.fan_out`.
-/

namespace GameLobby

/-! ## Who is told what -/

/-- Whether an account has set its flag for some news. -/
def Account.watches (news : News) (a : Account) : Bool :=
  match news with
  | .loggedIn .. | .loggedOut .. => a.subscriptions.logins
  | .chatPosted .. => a.subscriptions.chat
  | .roomUpdated _ | .roomRemoved _ => a.subscriptions.rooms

namespace News

/-- The messages that some news makes: the one that says what happened, and for a login or a logout
that is announced a chat line from nobody. -/
def script (announce : Bool) : News → List Message
  | .loggedIn uid name =>
    .userLoggedIn ⟨uid.number, name⟩ ::
      if announce then [.chat ⟨Text.utf8 "<< " ++ name ++ Text.utf8 " has logged in! >>", 0⟩]
      else []
  | .loggedOut uid name =>
    .userLoggedOut ⟨uid.number⟩ ::
      if announce then [.chat ⟨Text.utf8 "<< " ++ name ++ Text.utf8 " has logged out >>", 0⟩]
      else []
  | .chatPosted sender text => [.chat ⟨text, sender.number⟩]
  | .roomUpdated snapshot => [.gameServerData snapshot]
  | .roomRemoved notice => [.removeServer notice]

theorem script_eq (announce : Bool) (news : News) :
    news.script announce = news.message :: news.chatLine announce := by
  have hline : ∀ (name : RawText) (what : String), announcement name what =
      ⟨Text.utf8 "<< " ++ name ++ (Text.utf8 " " ++ Text.utf8 what), 0⟩ := fun name what => by
    rw [announcement, List.append_assoc]
  cases news with
  | loggedIn uid name =>
    simp only [script, message, chatLine, hline]
    rfl
  | loggedOut uid name =>
    simp only [script, message, chatLine, hline]
    rfl
  | _ => rfl

theorem get_topic (news : News) (a : Account) :
    a.subscriptions.get news.topic = a.watches news := by
  cases news <;> rfl

/-- Each message that fits a frame is offered once for each account that watches, by user
number. -/
theorem offers_eq (news : News) (announce : Bool) (reg : Registry) :
    ∃ told : List Account, told.Perm (reg.accounts.values.filter (·.watches news)) ∧
      told.Pairwise (·.uid.number.toNat ≤ ·.uid.number.toNat) ∧
      news.recipients reg = told.map (·.outbox) ∧
      news.offers announce reg =
        ((news.script announce).filter fun m => m.payload.length ≤ 1024).flatMap fun m =>
          told.map fun a => ⟨a.outbox, m⟩ := by
  have htold : reg.accounts.values.filter (·.subscriptions.get news.topic) =
      reg.accounts.values.filter (·.watches news) :=
    List.filter_congr fun a _ => news.get_topic a
  refine ⟨reg.subscribers news.topic, ?_, ascending_pairwise _ _, rfl, ?_⟩
  · exact htold ▸ ascending_perm ..
  · unfold offers
    rw [← script_eq]
    induction news.script announce with
    | nil => rfl
    | cons m ms ih =>
      rw [List.flatMap_cons, ih]
      by_cases hfits : m.payload.length ≤ 1024
      · rw [List.filter_cons_of_pos (by simpa using hfits), List.flatMap_cons, Message.offers,
          if_pos (show m.fits from decide_eq_true hfits), recipients, List.map_map]
        rfl
      · rw [List.filter_cons_of_neg (by simpa using hfits), Message.offers, if_neg]
        · rfl
        · exact fun h => hfits (of_decide_eq_true h)

end News

/-! ## What an outbox gets -/

/-- A message offered to recipients comes to an outbox as often as it is named. -/
theorem Offer.messagesFor_replicate (m : Message) (rs : List ConnectionId) (k : ConnectionId) :
    messagesFor k (rs.map (⟨·, m⟩)) = List.replicate (rs.count k) m := by
  induction rs with
  | nil => rfl
  | cons r rs ih =>
    rw [List.map_cons, messagesFor_cons, ih, List.count_cons]
    by_cases hr : r = k
    · rw [if_pos hr, if_pos (beq_iff_eq.mpr hr), List.replicate_succ]
    · rw [if_neg hr, if_neg (mt beq_iff_eq.mp hr), Nat.add_zero]

namespace Outboxes

variable (boxes : Outboxes)

theorem get?_offer (o : Offer) (k : ConnectionId) :
    (boxes.offer o).2.get? k =
      if o.recipient = k then (boxes.get? k).map fun box => (box.push o.message.frame).2
      else boxes.get? k := by
  have hinsert : ∀ {box : Outbox} (box' : Outbox), boxes.get? o.recipient = some box →
      (boxes.insert o.recipient box').get? k =
        if o.recipient = k then (boxes.get? k).map fun _ => box' else boxes.get? k := by
    intro box box' hbox
    rw [Table.get?_insert]
    by_cases hk : o.recipient = k
    · rw [if_pos hk.symm, if_pos hk, ← hk, hbox]
      rfl
    · rw [if_neg (Ne.symm hk), if_neg hk]
  unfold offer
  cases hbox : boxes.get? o.recipient with
  | none =>
    by_cases hk : o.recipient = k
    · rw [if_pos hk, ← hk, hbox]
      rfl
    · rw [if_neg hk]
  | some box =>
    have hpush : ∀ box', (box.push o.message.frame).2 = box' →
        (boxes.insert o.recipient box').get? k = if o.recipient = k then
          (boxes.get? k).map fun box => (box.push o.message.frame).2 else boxes.get? k := by
      rintro _ rfl
      rw [hinsert _ hbox]
      by_cases hk : o.recipient = k
      · rw [if_pos hk, if_pos hk, ← hk, hbox]
        rfl
      · rw [if_neg hk, if_neg hk]
    dsimp only
    split
    · exact hpush _ (congrArg Prod.snd ‹_›)
    · exact hpush _ (congrArg Prod.snd ‹_›)

/-- Each outbox gets what is offered to it, in order. -/
theorem get?_offerAll (offers : List Offer) (k : ConnectionId) :
    (boxes.offerAll offers).2.get? k =
      (boxes.get? k).map (·.pushAll (Offer.messagesFor k offers)) := by
  induction offers generalizing boxes with
  | nil => exact (Option.map_id_apply).symm
  | cons o offers ih =>
    show ((boxes.offer o).2.offerAll offers).2.get? k = _
    rw [ih, get?_offer, Offer.messagesFor_cons]
    by_cases hk : o.recipient = k
    · rw [if_pos hk, if_pos hk, Option.map_map]
      rfl
    · rw [if_neg hk, if_neg hk]

theorem offerAll_append (offers offers' : List Offer) :
    (boxes.offerAll (offers ++ offers')).2 = ((boxes.offerAll offers).2.offerAll offers').2 := by
  induction offers generalizing boxes with
  | nil => rfl
  | cons o offers ih => exact ih (boxes.offer o).2

/-- Publishing news pushes what is offered when there is that news. -/
theorem publish_snd (announce : Bool) (reg : Registry) (news : News) :
    (boxes.publish announce reg news).2 = (boxes.offerAll (news.offers announce reg)).2 := by
  have hsends : ∀ (ms : List Message) (boxes : Outboxes),
      ms.foldl (fun boxes m => (boxes.send (news.recipients reg) m).2) boxes =
        (boxes.offerAll (ms.flatMap (·.offers (news.recipients reg)))).2 := by
    intro ms
    induction ms with
    | nil => exact fun _ => rfl
    | cons m ms ih =>
      intro boxes
      rw [List.foldl_cons, ih, List.flatMap_cons, offerAll_append]
      rfl
  unfold News.offers
  exact hsends (news.message :: news.chatLine announce) boxes

/-- An outbox gets each message of the news that fits a frame, once for each account with this
outbox that watches. -/
theorem get?_publish {announce : Bool} {reg : Registry} {news : News} {told : List Account}
    (htold : news.offers announce reg =
      ((news.script announce).filter fun m => m.payload.length ≤ 1024).flatMap fun m =>
        told.map fun a => ⟨a.outbox, m⟩) (k : ConnectionId) :
    (boxes.publish announce reg news).2.get? k =
      (boxes.get? k).map (·.pushAll
        (((news.script announce).filter fun m => m.payload.length ≤ 1024).flatMap
          (List.replicate (told.countP (·.outbox = k))))) := by
  rw [publish_snd, get?_offerAll, htold, Offer.messagesFor_flatMap]
  have hone : ∀ m : Message, Offer.messagesFor k (told.map fun a => ⟨a.outbox, m⟩) =
      List.replicate (told.countP (·.outbox = k)) m := by
    intro m
    have hcount : (told.map (·.outbox)).count k = told.countP (·.outbox = k) := by
      rw [List.count, List.countP_map]
      exact List.countP_congr fun a _ => by simp
    rw [← hcount, ← Offer.messagesFor_replicate, List.map_map]
    rfl
  simp only [hone]

/-! ## Who took it in -/

theorem offerAll_cons_fst (o : Offer) (offers : List Offer) :
    (boxes.offerAll (o :: offers)).1 =
      ((boxes.offer o).2.offerAll offers).1 + (boxes.offer o).1.toNat := rfl

theorem offer_fst (o : Offer) :
    (boxes.offer o).1 =
      (boxes.get? o.recipient).any fun box => (box.push o.message.frame).1.isOk := by
  unfold offer
  cases boxes.get? o.recipient with
  | none => rfl
  | some box =>
    dsimp only
    split <;> simp only [*, Option.any_some] <;> rfl

/-- The pushes of a message to some recipients that succeed. Who is named again gets another copy,
so its outbox has the copies before. -/
def successes (m : Message) (rs : List ConnectionId) : Nat :=
  rs.zipIdx.countP fun p => (boxes.get? p.1).any fun box =>
    ((box.pushAll (List.replicate ((rs.take p.2).count p.1) m)).push m.frame).1.isOk

theorem offerAll_fst (m : Message) (rs : List ConnectionId) :
    (boxes.offerAll (rs.map (⟨·, m⟩))).1 = boxes.successes m rs := by
  -- the recipients so far, and the copies that they got, on the way through the list
  suffices h : ∀ later before : List ConnectionId,
      ((boxes.offerAll (before.map (⟨·, m⟩))).2.offerAll (later.map (⟨·, m⟩))).1 =
        (later.zipIdx before.length).countP fun p => (boxes.get? p.1).any fun box =>
          ((box.pushAll (List.replicate (((before ++ later).take p.2).count p.1) m)).push
            m.frame).1.isOk from
    h rs []
  intro later
  induction later with
  | nil => exact fun _ => rfl
  | cons r later ih =>
    intro before
    have hrest := ih (before ++ [r])
    rw [List.map_append, offerAll_append, List.length_append, List.append_assoc,
      List.singleton_append] at hrest
    have hcopies : Offer.messagesFor r (before.map (⟨·, m⟩)) = List.replicate (before.count r) m :=
      Offer.messagesFor_replicate m before r
    rw [List.map_cons, offerAll_cons_fst, offer_fst, get?_offerAll, hcopies, List.zipIdx_cons,
      List.countP_cons, List.take_left]
    refine congr (congrArg _ hrest) ?_
    cases boxes.get? r with
    | none => rfl
    | some box =>
      rw [Option.map_some, Option.any_some, Option.any_some]
      cases ((box.pushAll _).push m.frame).1.isOk <;> rfl

theorem send_fst (m : Message) (rs : List ConnectionId) :
    (boxes.send rs m).1 = boxes.successes m rs := by
  unfold send Message.offers
  by_cases hfits : m.fits
  · rw [if_pos hfits, offerAll_fst]
  · rw [if_neg hfits]
    have hlt : FrameHeader.maxPayload < m.frame.payload.length :=
      Nat.not_le.mp fun hle => hfits (decide_eq_true hle)
    have hnone : ∀ box : Outbox, (box.push m.frame).1.isOk = false := fun box => by
      unfold Outbox.push
      rw [if_pos hlt]
      rfl
    unfold successes
    simp only [hnone]
    refine (List.countP_eq_zero.mpr fun p _ => ?_).symm
    cases boxes.get? p.1 <;> simp

/-- If nobody is named twice, whether a push succeeds can be told from the outbox as it was. -/
theorem successes_of_nodup (m : Message) {rs : List ConnectionId} (h : rs.Nodup) :
    boxes.successes m rs =
      rs.countP fun k => (boxes.get? k).any fun box => (box.push m.frame).1.isOk := by
  have hfirst : ∀ p ∈ rs.zipIdx, (rs.take p.2).count p.1 = 0 := by
    intro p hp
    have hget : (rs.drop p.2)[0]? = some p.1 := by
      rw [List.getElem?_drop]
      exact List.mem_zipIdx_iff_getElem?.mp hp
    have hdrop : p.1 ∈ rs.drop p.2 := List.mem_of_getElem? hget
    rw [← List.take_append_drop p.2 rs, List.nodup_append] at h
    exact List.count_eq_zero.mpr fun htake => h.2.2 p.1 htake p.1 hdrop rfl
  have hmap : rs.zipIdx.map Prod.fst = rs := List.zipIdx_map_fst 0 rs
  unfold successes
  calc _ = rs.zipIdx.countP ((fun k => (boxes.get? k).any fun box =>
          (box.push m.frame).1.isOk) ∘ Prod.fst) :=
        List.countP_congr fun p hp => by rw [hfirst p hp]; rfl
    _ = _ := by rw [← List.countP_map, hmap]

/-- **Fan-out.** Whatever accounts there are and whatever the outboxes hold, each message of some
news that fits a frame is offered to the outbox of each account that watches for such news, in the
order of user numbers, and nothing is offered to anybody else:

* an outbox takes what is offered to it and nothing else, so it holds afterwards what it would hold
  if all the other outboxes were different;
* the result is how many of the pushes of the first message succeed, and if no two of the accounts
  share an outbox this can be told from the outboxes as they were;
* in the lobby, news told in a turn does the same to the outboxes and leaves the registry alone. -/
theorem fan_out (reg : Registry) (news : News) (announce : Bool) :
    ∃ told : List Account, told.Perm (reg.accounts.values.filter (·.watches news)) ∧
      told.Pairwise (·.uid.number.toNat ≤ ·.uid.number.toNat) ∧
      news.offers announce reg =
        ((news.script announce).filter fun m => m.payload.length ≤ 1024).flatMap (fun m =>
          told.map fun a => ⟨a.outbox, m⟩) ∧
      (∀ k, (boxes.publish announce reg news).2.get? k =
        (boxes.get? k).map (·.pushAll
          (((news.script announce).filter fun m => m.payload.length ≤ 1024).flatMap
            (List.replicate (told.countP (·.outbox = k)))))) ∧
      (∀ (boxes' : Outboxes) k, boxes'.get? k = boxes.get? k →
        (boxes'.publish announce reg news).2.get? k =
          (boxes.publish announce reg news).2.get? k) ∧
      (boxes.publish announce reg news).1 = boxes.successes news.message (told.map (·.outbox)) ∧
      ((told.map (·.outbox)).Nodup → (boxes.publish announce reg news).1 =
        told.countP fun a =>
          (boxes.get? a.outbox).any fun box => (box.push news.message.frame).1.isOk) ∧
      ∀ (rules : Rules) (l : Lobby), rules.config.announceLogins = announce → l.registry = reg →
        (∀ k, (l.lines.get? k).map (·.outbox) = boxes.get? k) →
        let l' := l.takeTurn fun t => ((Handler.tell rules news).run t).2
        l'.registry = reg ∧
          ∀ k, (l'.lines.get? k).map (·.outbox) = (boxes.publish announce reg news).2.get? k := by
  obtain ⟨told, hperm, horder, hnames, hoffers⟩ := news.offers_eq announce reg
  have hcount : (boxes.publish announce reg news).1 =
      boxes.successes news.message (told.map (·.outbox)) :=
    hnames ▸ boxes.send_fst news.message (news.recipients reg)
  refine ⟨told, hperm, horder, hoffers, boxes.get?_publish hoffers, fun boxes' k hk => ?_, hcount,
    fun hnodup => ?_, fun rules l hannounce hreg hlines => ?_⟩
  · rw [boxes'.get?_publish hoffers, boxes.get?_publish hoffers, hk]
  · rw [hcount, boxes.successes_of_nodup _ hnodup, List.countP_map]
    rfl
  · intro l'
    refine ⟨(Lobby.registry_takeTurn l _).trans hreg, fun k => ?_⟩
    rw [boxes.publish_snd, boxes.get?_offerAll, ← hlines, Lobby.get?_lines_takeTurn, hreg,
      Handler.run_tell, hannounce, List.nil_append, Option.map_map, Option.map_map]
    rfl

/-- Three users, of whom the first two watch for logins. -/
def watchers : Registry :=
  [Registry.Call.logIn ⟨1⟩ [0x41] ⟨1⟩, .logIn ⟨2⟩ [0x42] ⟨2⟩, .logIn ⟨3⟩ [0x43] ⟨3⟩,
    .setSubscription ⟨1⟩ .logins true, .setSubscription ⟨2⟩ .logins true].foldl
    Registry.Call.apply .empty

/-- Outboxes of the three, where that of the first has room for `room` messages. -/
def neighbours (room : Nat) : Outboxes :=
  ((Table.empty.insert ⟨1⟩ ⟨⟨1⟩, room, [], false, false⟩).insert ⟨2⟩
    ⟨⟨2⟩, 4, [], false, false⟩).insert ⟨3⟩ ⟨⟨3⟩, 4, [], false, false⟩

/-- When somebody logs in, the second user gets the message and the chat line, whether the first is
kicked or not. -/
theorem neighbour_of_full :
    let news := News.loggedIn ⟨4⟩ [0x44]
    let full := (neighbours 0).publish true watchers news
    let healthy := (neighbours 4).publish true watchers news
    full.1 = 1 ∧ healthy.1 = 2 ∧ (full.2.get? ⟨1⟩).any (·.kicked) ∧
      full.2.get? ⟨2⟩ = healthy.2.get? ⟨2⟩ ∧
      (healthy.2.get? ⟨2⟩).map (·.queue) = some ((news.script true).map (·.frame)) := by
  intro news full healthy
  obtain ⟨-, -, -, -, -, hindependent, -⟩ := fan_out (neighbours 4) watchers news true
  exact ⟨by decide, by decide, by decide, hindependent (neighbours 0) ⟨2⟩ (by decide), by decide⟩

end Outboxes

end GameLobby
