import GameLobby.Proofs.Registry.Ownership
import GameLobby.Proofs.Session.Conduct

/-!
# What a turn leaves to others

Whatever a client sends, and when its session ends, its turn changes nothing that belongs to others:
the calls of a turn are made for the own connection (`Event.deeds_own`), each of them spares the
others (`Registry.WellFormed.apply_spares`), and so does the turn (`Event.spares`). Main statement:
`turn_changes_only_own`.
-/

namespace GameLobby

open Registry

theorem Deed.Own.spares {conn : ConnectionId} {reg : Registry} {d : Deed} (h : d.Own conn reg)
    (hwf : reg.WellFormed) : Spares conn reg (d.after reg) := by
  cases d with
  | call c =>
    obtain ⟨rfl, -, hn, -⟩ := h
    exact hwf.apply_spares hn c
  | send | tell | exhibit => exact .refl conn reg

theorem Event.spares (rules : Rules) (e : Event) {reg : Registry} (hco : reg.Coherent)
    (hn : reg.NumbersLeft) : Spares e.conn reg (e.turn rules ⟨reg, []⟩).registry := by
  rw [Event.registry_turn]
  -- each deed finds a registry that is still coherent
  let I (reg' : Registry) : Prop := reg'.Coherent ∧ Spares e.conn reg reg'
  have hstep : ∀ reg' d, Deed.Own e.conn reg' d → I reg' → I (d.after reg') := fun reg' d hd hI =>
    ⟨hd.coherent hI.1, hI.2.trans (hd.spares hI.1.toWellFormed)⟩
  have hkept : I (Deed.afterAll reg (e.deeds rules reg)) :=
    (e.deeds_own rules hn).preserves ⟨hco, .refl e.conn reg⟩ hstep
  exact hkept.2

namespace Registry

/-- A room of `conn` that an account had joined went. -/
def Lost (conn : ConnectionId) (reg reg' : Registry) (a : Account) : Prop :=
  ∃ r, reg.roomOf? conn = some r ∧ a.joinedRoom = some r.id ∧ reg'.room? r.id = none

/-- A room of somebody else is still found by its number. -/
theorem Spares.room?_isSome {conn : ConnectionId} {reg reg' : Registry} (h : Spares conn reg reg')
    (hwf' : reg'.WellFormed) {o : ConnectionId} (ho : o ≠ conn) {r : Room}
    (hr : reg.roomOf? o = some r) : reg'.room? r.id ≠ none := by
  have hsame := h.room_eq ho
  rw [hr] at hsame
  obtain ⟨r', hr', hwithout⟩ := Option.map_eq_some_iff.mp hsame
  have hid : (r'.without conn).id = (r.without conn).id := congrArg Room.id hwithout
  change r'.id = r.id at hid
  rw [← hid, hwf'.room?_of_roomOf? hr']
  exact Option.some_ne_none r'

/-- Others lose the note of a joined room exactly if it was a room of `conn` that went. -/
theorem Spares.account {conn : ConnectionId} {reg reg' : Registry} (h : Spares conn reg reg')
    (hwf : reg.WellFormed) (hwf' : reg'.WellFormed) {c : ConnectionId} (hc : c ≠ conn) {a : Account}
    (ha : reg.account? c = some a) :
    ∃ j, reg'.account? c = some { a with joinedRoom := j } ∧
      (Lost conn reg reg' a → j = none) ∧ (¬ Lost conn reg reg' a → j = a.joinedRoom) := by
  obtain ⟨j, hj, ha'⟩ := h.account_some hc ha
  refine ⟨j, ha', fun hlost => ?_, fun hkept => ?_⟩
  · obtain ⟨r, -, hnote, hnone⟩ := hlost
    rcases hj with rfl | ⟨hj, -⟩
    · -- what an account notes is there
      obtain ⟨s, hs, -⟩ := hwf'.joined_seat ha' hnote
      rw [hnone] at hs
      exact nomatch hs
    · exact hj
  · rcases hj with hj | ⟨-, id, hnote, hgone⟩
    · exact hj
    · obtain ⟨r, hr, -, -⟩ := hwf.joined_seat ha hnote
      have hid := hwf.id_of_room? hr
      have howner := hwf.roomOf?_owner hr
      by_cases ho : r.owner = conn
      · exact absurd ⟨r, ho ▸ howner, hid ▸ hnote, hid ▸ hgone.1⟩ hkept
      · exact absurd (hid ▸ hgone.1) (h.room?_isSome hwf' ho howner)

end Registry

namespace Lobby

/-- **Ownership.** In whatever state a lobby is, a turn that is taken for a connection, because of a
frame or because its session has ended, leaves the rooms of the others as they are except for a seat
of that connection. The others' accounts stay as well, and they lose the note of a joined room
exactly if it was the room of that connection and went. -/
theorem turn_changes_only_own {rules : Rules} {l : Lobby} {ms : List Moment}
    (h : Passes rules opened ms l) (hn : ∀ m ∈ ms, m.registry.NumbersLeft)
    (hl : l.registry.NumbersLeft) (e : Event) :
    let reg := l.registry
    let reg' := (l.takeTurn (e.turn rules)).registry
    (∀ o, o ≠ e.conn →
      (reg'.roomOf? o).map (·.without e.conn) = (reg.roomOf? o).map (·.without e.conn)) ∧
    (∀ c, c ≠ e.conn → reg.account? c = none → reg'.account? c = none) ∧
    ∀ c, c ≠ e.conn → ∀ a, reg.account? c = some a →
      ∃ j, reg'.account? c = some { a with joinedRoom := j } ∧
        (Lost e.conn reg reg' a → j = none) ∧ (¬ Lost e.conn reg reg' a → j = a.joinedRoom) := by
  intro reg reg'
  have hco : reg.Coherent := h.coherent hn
  have hspares : Spares e.conn reg reg' := by
    show Spares e.conn reg (l.takeTurn (e.turn rules)).registry
    rw [registry_takeTurn]
    exact e.spares rules hco hl
  have hco' : reg'.Coherent := by
    show (l.takeTurn (e.turn rules)).registry.Coherent
    rw [registry_takeTurn]
    exact e.coherent_turn rules hco hl
  refine ⟨fun o ho => hspares.room_eq ho, fun c hc ha => hspares.account_none hc ha, ?_⟩
  intro c hc a ha
  exact hspares.account hco.toWellFormed hco'.toWellFormed hc ha

/-- The first user closes the room, and the second loses the note of it and nothing else. -/
theorem guest_loses_closed_room :
    ∃ a, (takeTurns .plain opened evening).registry.account? ⟨2⟩ = some a ∧
      a.joinedRoom = some ⟨1⟩ ∧
      ((takeTurns .plain opened evening).takeTurn
        ((Event.sent 1 (.removeServer ⟨1, false, 3⟩)).turn .plain)).registry.account? ⟨2⟩ =
          some { a with joinedRoom := none } := by
  have hn : ∀ m ∈ moments .plain opened evening, m.registry.NumbersLeft := by decide +kernel
  have hl : (takeTurns .plain opened evening).registry.NumbersLeft := by decide +kernel
  obtain ⟨-, -, hothers⟩ := turn_changes_only_own (passes_takeTurns .plain opened evening) hn hl
    (.sent 1 (.removeServer ⟨1, false, 3⟩))
  let guest : Account := ⟨⟨2⟩, ⟨2⟩, [0x42], .none, some ⟨1⟩, ⟨2⟩⟩
  have hguest : (takeTurns .plain opened evening).registry.account? ⟨2⟩ = some guest := by
    decide +kernel
  have hroom : ((takeTurns .plain opened evening).registry.roomOf? ⟨1⟩).map (·.id) = some ⟨1⟩ := by
    decide +kernel
  have hgone : ((takeTurns .plain opened evening).takeTurn
      ((Event.sent 1 (.removeServer ⟨1, false, 3⟩)).turn .plain)).registry.room? ⟨1⟩ = none := by
    decide +kernel
  obtain ⟨r, hr, hid⟩ := Option.map_eq_some_iff.mp hroom
  obtain ⟨j, hj, hlost, -⟩ := hothers ⟨2⟩ (by decide) guest hguest
  have hnone : j = none := hlost ⟨r, hr, hid ▸ rfl, hid ▸ hgone⟩
  exact ⟨guest, hguest, rfl, hnone ▸ hj⟩

end Lobby

end GameLobby
