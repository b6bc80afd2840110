/-!
# Listings

Lists put in order by a numeric key. `ascending` loses and doubles nothing (`ascending_perm`) and
its result goes up (`ascending_pairwise`), without a halt where keys are distinct
(`ascending_pairwise_lt`). Two bounds on how many elements of a list are of some kind follow.
-/

namespace GameLobby

universe u

variable {α : Type u}

/-- `a` put before the first element with a larger key. -/
def insertAscending (key : α → Nat) (a : α) : List α → List α
  | [] => [a]
  | b :: rest => if key a < key b then a :: b :: rest else b :: insertAscending key a rest

/-- The elements by ascending key; those of equal keys stay in order. -/
def ascending (key : α → Nat) (l : List α) : List α :=
  l.foldl (fun sorted a => insertAscending key a sorted) []

theorem insertAscending_perm (key : α → Nat) (a : α) (l : List α) :
    (insertAscending key a l).Perm (a :: l) := by
  induction l with
  | nil => exact .refl _
  | cons b rest ih =>
    unfold insertAscending
    split
    · exact .refl _
    · exact (ih.cons b).trans (.swap a b rest)

theorem ascending_perm (key : α → Nat) (l : List α) : (ascending key l).Perm l := by
  suffices h : ∀ sorted,
      (l.foldl (fun sorted a => insertAscending key a sorted) sorted).Perm (sorted ++ l) by
    have := h []
    rwa [List.nil_append] at this
  induction l with
  | nil => intro sorted; simp
  | cons a rest ih =>
    intro sorted
    refine (ih _).trans (((insertAscending_perm key a sorted).append_right rest).trans ?_)
    exact List.perm_middle.symm

@[simp] theorem mem_ascending {key : α → Nat} {a : α} {l : List α} :
    a ∈ ascending key l ↔ a ∈ l :=
  (ascending_perm key l).mem_iff

theorem insertAscending_pairwise (key : α → Nat) (a : α) {l : List α}
    (h : l.Pairwise (key · ≤ key ·)) :
    (insertAscending key a l).Pairwise (key · ≤ key ·) := by
  induction l with
  | nil => exact List.pairwise_singleton _ _
  | cons b rest ih =>
    obtain ⟨hb, hrest⟩ := List.pairwise_cons.mp h
    unfold insertAscending
    split
    · rename_i hlt
      refine List.pairwise_cons.mpr ⟨fun c hc => ?_, h⟩
      rcases List.mem_cons.mp hc with rfl | hc
      · exact Nat.le_of_lt hlt
      · exact Nat.le_trans (Nat.le_of_lt hlt) (hb c hc)
    · rename_i hle
      refine List.pairwise_cons.mpr ⟨fun c hc => ?_, ih hrest⟩
      rcases List.mem_cons.mp ((insertAscending_perm key a rest).mem_iff.mp hc) with rfl | hc
      · exact Nat.le_of_not_lt hle
      · exact hb c hc

theorem ascending_pairwise (key : α → Nat) (l : List α) :
    (ascending key l).Pairwise (key · ≤ key ·) := by
  suffices h : ∀ sorted : List α, sorted.Pairwise (key · ≤ key ·) →
      (l.foldl (fun sorted a => insertAscending key a sorted) sorted).Pairwise
        (key · ≤ key ·) from
    h [] List.Pairwise.nil
  induction l with
  | nil => intro sorted h; exact h
  | cons a rest ih => intro sorted h; exact ih _ (insertAscending_pairwise key a h)

theorem ascending_pairwise_lt {key : α → Nat} {l : List α} (h : (l.map key).Nodup) :
    (ascending key l).Pairwise (key · < key ·) := by
  have hdistinct : (ascending key l).Pairwise (key · ≠ key ·) :=
    List.pairwise_map.mp (((ascending_perm key l).map key).nodup_iff.mpr h)
  exact ((ascending_pairwise key l).and hdistinct).imp fun h => Nat.lt_of_le_of_ne h.1 h.2

/-! ## Counts -/

/-- Whoever counts fewer somewhere, and nowhere more, counts fewer. -/
theorem countP_lt_of_mem {p q : α → Bool} {l : List α} (hle : ∀ a ∈ l, q a → p a) {a : α}
    (ha : a ∈ l) (hp : p a) (hq : q a = false) : l.countP q < l.countP p := by
  obtain ⟨xs, ys, rfl⟩ := List.append_of_mem ha
  have hxs : xs.countP q ≤ xs.countP p :=
    List.countP_mono_left fun b hb => hle b (List.mem_append_left _ hb)
  have hys : ys.countP q ≤ ys.countP p :=
    List.countP_mono_left fun b hb => hle b (List.mem_append_right _ (List.mem_cons_of_mem a hb))
  rw [List.countP_append, List.countP_append, List.countP_cons, List.countP_cons, if_pos hp, hq]
  simp only [Bool.false_eq_true, if_false]
  omega

theorem countP_or_le (p q : α → Bool) (l : List α) :
    (l.countP fun a => p a || q a) ≤ l.countP p + l.countP q := by
  induction l with
  | nil => simp
  | cons a l ih =>
    rw [List.countP_cons, List.countP_cons, List.countP_cons]
    cases p a <;> cases q a <;> simp <;> omega

end GameLobby
