import GameLobby.Proofs.Registry.Capacity
import GameLobby.Registry.Snapshot

/-!
# Headcounts

A room shows its headcount in a byte. The limit of a room is a byte too, and whatever limits its
owner sets and resets, nobody gets a seat beyond the one in force. So no order of calls brings more
than 255 players into a room (`Counted.apply`), as long as owners edit no more than the listings,
and what it shows is exact.

What a new room has and no change of a room takes from it, the rooms of every run have
(`roomOf?_run`). Main statement: `headcount_shown_exact`.
-/

namespace GameLobby

namespace Registry

/-- The players of every room can be counted in a byte. -/
def Counted (reg : Registry) : Prop :=
  ∀ o r, reg.roomOf? o = some r → r.headcount ≤ 255

theorem counted_empty : empty.Counted := nofun

section Changes

variable {reg : Registry} {call : Call} {o : ConnectionId} {r r' : Room}

/-- Whatever the limit was before, who is seated keeps to the one there is. -/
theorem RoomChange.headcount_le (h : RoomChange reg call o r r') (hrelists : call.Relists)
    (hle : r.headcount ≤ 255) : r'.headcount ≤ 255 := by
  cases h with
  | kept => exact hle
  | edited hcall =>
    subst hcall
    obtain ⟨relisting, rfl⟩ := hrelists
    exact hle
  | seated _ _ _ hfull =>
    have hlimit := r.settings.maxPlayers.toNat_lt
    rw [Room.isFull_iff, Room.taken] at hfull
    simp only [Room.headcount, List.length_append, List.length_singleton] at hfull ⊢
    omega
  | unseated => exact Nat.le_trans (Room.players_unseat_sublist _ _).length_le hle

theorem Counted.apply (h : reg.Counted) (hrelists : call.Relists) : (call.apply reg).Counted := by
  intro o r' hr'
  rcases roomOf?_apply_cases hr' with ⟨r, hr, hchange⟩ | ⟨-, uid, settings, -, rfl⟩
  · exact hchange.headcount_le hrelists (h o r hr)
  · show 1 ≤ 255
    decide

theorem RoomChange.owner_mem (h : RoomChange reg call o r r') (hrelists : call.Relists)
    (hmem : r.owner ∈ r.players) : r'.owner ∈ r'.players := by
  cases h with
  | kept => exact hmem
  | edited hcall =>
    subst hcall
    obtain ⟨relisting, rfl⟩ := hrelists
    exact hmem
  | seated => exact List.mem_append_left _ hmem
  | unseated =>
    rw [Room.owner_unseat, Room.mem_players_unseat]
    refine ⟨hmem, ?_⟩
    by_cases hown : r.owner = call.conn
    · exact .inr hown.symm
    · exact .inl hown

theorem RoomChange.players_nodup (h : RoomChange reg call o r r') (hrelists : call.Relists)
    (hnodup : r.players.Nodup) : r'.players.Nodup := by
  cases h with
  | kept => exact hnodup
  | edited hcall =>
    subst hcall
    obtain ⟨relisting, rfl⟩ := hrelists
    exact hnodup
  | seated _ _ hnew => exact Room.seat_of_not_mem hnew ▸ Room.nodup_players_seat hnodup
  | unseated => exact Room.nodup_players_unseat hnodup

end Changes

/-- What new rooms have and changes keep, the rooms of every run have, if they are edited in their
listings only. -/
theorem roomOf?_run {P : Room → Prop}
    (hopened : ∀ id o uid settings, P (.opened id o uid settings))
    (hchange : ∀ {reg call o r r'}, RoomChange reg call o r r' → call.Relists → P r → P r')
    {calls : List Call} (hrelists : ∀ call ∈ calls, call.Relists) {o : ConnectionId} {r : Room}
    (hr : (Call.run calls).roomOf? o = some r) : P r := by
  induction calls using Call.snoc_induction generalizing r with
  | nil => cases hr
  | snoc calls call ih =>
    rw [Call.run_snoc] at hr
    rcases roomOf?_apply_cases hr with ⟨s, hs, hstep⟩ | ⟨-, uid, settings, -, rfl⟩
    · exact hchange hstep (hrelists call (List.mem_append_right _ List.mem_cons_self))
        (ih (fun c hc => hrelists c (List.mem_append_left _ hc)) hs)
    · exact hopened ..

end Registry

/-- A room shows how many players it has, if a byte can hold them. -/
theorem Room.currPlayers_snapshot {r : Room} (h : r.headcount ≤ 255) (ticketId : UInt32) :
    (r.snapshot ticketId).currPlayers.toNat = r.headcount := by
  show (UInt8.ofNat (min r.headcount 255)).toNat = r.headcount
  rw [Nat.min_eq_left h, UInt8.toNat_ofNat_of_lt' (Nat.lt_succ_of_le h)]

namespace Registry

/-- **Headcounts.** After any calls in any order, whatever listings and so whatever limits their
owners gave them meanwhile, rooms have between 1 and 255 players, no two of whom are the same. What
a room shows is what is stored about it, with the number of its players. -/
theorem headcount_shown_exact {calls : List Call} (hrelists : ∀ call ∈ calls, call.Relists)
    {r : Room} (hr : r ∈ (Call.run calls).rooms.values) :
    1 ≤ r.headcount ∧ r.headcount ≤ 255 ∧ r.players.Nodup ∧
    ∀ ticketId,
      (r.snapshot ticketId).currPlayers.toNat = r.headcount ∧
      r.snapshot ticketId =
        { serverId := r.id.number
          name := r.settings.name
          ownerId := r.ownerUid.number
          description := r.settings.description
          ip := r.settings.ip
          port := r.settings.port
          serverType := r.settings.serverType
          lobbyId := r.settings.lobbyId
          version := r.settings.version
          maxPlayers := r.settings.maxPlayers
          currPlayers := UInt8.ofNat r.headcount
          aiPlayers := r.settings.aiPlayers
          level := r.settings.level
          gameMode := r.settings.gameMode
          hardcore := r.settings.hardcore
          map := r.settings.map
          running := r.running
          data := r.settings.data
          ticketId := ticketId } := by
  obtain ⟨o, ho⟩ := (mem_rooms_iff _).mp hr
  have howner : r.owner ∈ r.players := roomOf?_run (P := fun r => r.owner ∈ r.players)
    (fun _ _ _ _ => .head _) RoomChange.owner_mem hrelists ho
  have hnodup : r.players.Nodup := roomOf?_run (P := fun r => r.players.Nodup)
    (fun _ _ _ _ => List.nodup_cons.mpr ⟨List.not_mem_nil, List.nodup_nil⟩)
    RoomChange.players_nodup hrelists ho
  have hle : r.headcount ≤ 255 := roomOf?_run (P := fun r => r.headcount ≤ 255)
    (fun _ _ _ _ => (by decide : 1 ≤ 255)) RoomChange.headcount_le hrelists ho
  refine ⟨List.length_pos_of_mem howner, hle, hnodup, fun ticketId =>
    ⟨Room.currPlayers_snapshot hle ticketId, ?_⟩⟩
  rw [Room.snapshot, Nat.min_eq_left hle]
  rfl

/-- The room of `crowd` shows its three players, one more than its limit. -/
theorem headcount_shown_exact_crowd :
    ∃ room ∈ (Call.run crowd).rooms.values, room.settings.maxPlayers = 2 ∧
      room.players = [⟨1⟩, ⟨2⟩, ⟨3⟩] ∧ ((room.snapshot 7).currPlayers).toNat = 3 := by
  refine ⟨_, .head _, rfl, rfl, ?_⟩
  exact (headcount_shown_exact crowd_relists (.head _)).2.2.2 7 |>.1

end Registry

end GameLobby
