import GameLobby.Proofs.Lobby.Discretion

/-!
# Users come and go

What the turns of a history do to one user is a `Course`: as no number is given twice, the user
comes once at most, and then goes once at most (`Passes.course`).
-/

namespace GameLobby

open Registry

/-- What becomes of a user in a turn. -/
def Moment.change? (m : Moment) (u : UserId) : Option Presence :=
  m.registry.change? m.after u

/-- Some connection does not take its turn to revise what it hears of logins. -/
theorem Event.exists_not_revisesLogins (e : Event) : ∃ c, ¬ e.RevisesLogins c := by
  have hne : ∀ conn : ConnectionId, conn ≠ ⟨conn.number + 1⟩ := by
    rintro ⟨n⟩ heq
    simp at heq
  cases e with
  | frame v f => exact ⟨⟨v.conn.number + 1⟩, fun h => hne v.conn h.1⟩
  | departure conn => exact ⟨⟨conn.number + 1⟩, hne conn⟩

/-- No turn has two users under one number, or gives a number anew. -/
theorem Event.attended_turn (rules : Rules) (e : Event) {reg : Registry} (h : reg.Attended)
    (hl : reg.UidsLeft) :
    (e.turn rules ⟨reg, []⟩).registry.Attended ∧
      reg.Precedes (e.turn rules ⟨reg, []⟩).registry := by
  rw [Event.registry_turn]
  obtain ⟨c, hstays⟩ := e.exists_not_revisesLogins
  rcases Event.deeds_cases rules reg hstays with hds | ⟨v, nickname, ticketId, -, -, heq⟩ |
    ⟨conn, -, rfl⟩
  · obtain ⟨hsame, hhoused, -⟩ := Deed.afterAll_discreet hds reg
    exact ⟨⟨hsame.numbered h.toNumbered, hhoused h.housed⟩, hsame.precedes⟩
  · have hcall : (Call.logIn v.conn nickname v.conn).Housed := rfl
    rw [heq]
    exact h.apply hl hcall
  · have hafter : Deed.afterAll reg (Event.deeds rules reg (.departure conn)) =
        (reg.logOut conn).2 := Session.afterAll_departureDeeds reg conn
    rw [hafter]
    exact @Attended.apply reg h hl (.logOut conn) trivial

/-- How a user fares who is there at first or is not, and is there in the end or is not. -/
inductive Course : Bool → List Presence → Bool → Prop where
  | stays (there : Bool) : Course there [] there
  | comes : Course false [.came] true
  | goes : Course true [.went] false
  | visits : Course false [.came, .went] false

/-- A course goes on, if nobody comes about whom there was something to tell before. -/
theorem Course.snoc {there : Bool} {cs : List Presence} {reg reg' : Registry} {u : UserId}
    (h : Course there cs (decide (reg.Live u)))
    (hnew : reg.change? reg' u = some .came → cs = []) :
    Course there (cs ++ (reg.change? reg' u).toList) (decide (reg'.Live u)) := by
  cases hchange : reg.change? reg' u with
  | none =>
    rw [decide_eq_decide.mpr (change?_eq_none_iff.mp hchange), Option.toList_none, List.append_nil]
    exact h
  | some p =>
    cases p with
    | came =>
      obtain ⟨hout, hin⟩ := change?_eq_came_iff.mp hchange
      rw [hnew hchange, decide_eq_false hout] at h
      rw [hnew hchange, decide_eq_true hin]
      cases h
      exact .comes
    | went =>
      obtain ⟨hin, hout⟩ := change?_eq_went_iff.mp hchange
      rw [decide_eq_true hin] at h
      rw [decide_eq_false hout]
      cases h
      · exact .goes
      · exact .visits

namespace Lobby

theorem Passes.attended {rules : Rules} {l : Lobby} {ms : List Moment}
    (h : Passes rules opened ms l) (hl : ∀ m ∈ ms, m.registry.UidsLeft) : l.registry.Attended :=
  h.preserves hl attended_empty fun _ _ e hl hatt => (e.attended_turn _ hatt hl).1

/-- **Courses.** What the turns of a history do to a user. -/
theorem Passes.course {rules : Rules} {l₀ l : Lobby} {ms : List Moment}
    (h : Passes rules l₀ ms l) (hatt : l₀.registry.Attended) (hl : ∀ m ∈ ms, m.registry.UidsLeft)
    (u : UserId) :
    Course (decide (l₀.registry.Live u)) (ms.filterMap (·.change? u))
      (decide (l.registry.Live u)) := by
  -- whoever was told of has a number that was given out
  let I (reg : Registry) (cs : List Presence) : Prop :=
    reg.Attended ∧ (cs ≠ [] → u.number ≤ reg.lastUid) ∧
      Course (decide (l₀.registry.Live u)) cs (decide (reg.Live u))
  have hkept : I l.registry (ms.filterMap (·.change? u)) := by
    induction h with
    | refl => exact ⟨hatt, fun hne => absurd rfl hne, .stays _⟩
    | quiet _ hq ih =>
      rw [hq.registry_eq]
      exact ih hl
    | @turn ms l' _ gatekeeper e ih =>
      simp only [List.forall_mem_append, List.forall_mem_singleton] at hl
      obtain ⟨hatt', hgiven, hcourse⟩ := ih hl.1
      obtain ⟨hatt'', hprecedes⟩ := e.attended_turn (rules.under gatekeeper) hatt' hl.2
      let reg' := (e.turn (rules.under gatekeeper) ⟨l'.registry, []⟩).registry
      have hcs : (ms ++ [l'.moment (rules.under gatekeeper) e]).filterMap (·.change? u) =
          ms.filterMap (·.change? u) ++ (l'.registry.change? reg' u).toList := by
        show _ = _ ++ ((l'.moment (rules.under gatekeeper) e).change? u).toList
        rw [List.filterMap_append, List.filterMap_cons, List.filterMap_nil]
        cases (l'.moment (rules.under gatekeeper) e).change? u <;> rfl
      rw [registry_takeTurn, hcs]
      refine ⟨hatt'', fun hne => ?_, hcourse.snoc fun hcame => ?_⟩
      · cases hchange : l'.registry.change? reg' u with
        | none =>
          rw [hchange, Option.toList_none, List.append_nil] at hne
          exact UInt32.le_trans (hgiven hne) hprecedes.lastUid_le
        | some p =>
          cases p with
          | came => exact hatt''.le_of_live (change?_eq_came_iff.mp hchange).2
          | went =>
            have hlive := (change?_eq_went_iff.mp hchange).1
            exact UInt32.le_trans (hatt'.le_of_live hlive) hprecedes.lastUid_le
      · obtain ⟨hout, hin⟩ := change?_eq_came_iff.mp hcame
        refine Decidable.byContradiction fun hne => ?_
        exact UInt32.not_le.mpr ((hprecedes.live_or_new hin).resolve_left hout) (hgiven hne)
  exact hkept.2.2

end Lobby

end GameLobby
