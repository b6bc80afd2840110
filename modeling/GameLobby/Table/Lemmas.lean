import GameLobby.Table.Basic

/-!
# What table operations do

Each operation has one equation that says what it does to `get?`: `get?_insert`, `get?_erase`,
`get?_modify`, `get?_mapValues`. A key has a value exactly if an entry holds it
(`get?_eq_some_iff`), and a table is its keys in order with what it holds for them (`ext_get?`).
-/

namespace GameLobby.Table

universe u v

variable {κ : Type u} {α : Type v}

@[simp] theorem keys_mapValues (t : Table κ α) (f : κ → α → α) : (t.mapValues f).keys = t.keys := by
  simp [keys, mapValues, Function.comp_def]

variable [DecidableEq κ]

@[simp] theorem keys_modify (t : Table κ α) (k : κ) (f : α → α) : (t.modify k f).keys = t.keys :=
  keys_mapValues t _

theorem get?_eq_some_iff {t : Table κ α} {k : κ} {a : α} :
    t.get? k = some a ↔ (k, a) ∈ t.entries := by
  obtain ⟨entries, nodup⟩ := t
  show (entries.find? _).map Prod.snd = some a ↔ (k, a) ∈ entries
  induction entries with
  | nil => simp
  | cons e rest ih =>
    obtain ⟨hnot, hrest⟩ := List.nodup_cons.mp nodup
    by_cases h : e.1 = k
    · rw [List.find?_cons_of_pos (by simpa using h), List.mem_cons]
      constructor
      · intro he
        have ha : e.2 = a := by simpa using he
        exact .inl (by rw [← h, ← ha])
      · rintro (he | he)
        · rw [← he]; rfl
        · exact absurd (h ▸ List.mem_map.mpr ⟨_, he, rfl⟩) hnot
    · rw [List.find?_cons_of_neg (by simpa using h), List.mem_cons, ih hrest]
      constructor
      · exact .inr
      · rintro (he | he)
        · exact absurd (by rw [← he]) h
        · exact he

theorem get?_eq_none_iff {t : Table κ α} {k : κ} : t.get? k = none ↔ k ∉ t.keys := by
  rw [Option.eq_none_iff_forall_ne_some]
  constructor
  · intro h hk
    obtain ⟨e, he, rfl⟩ := List.mem_map.mp hk
    exact h e.2 (get?_eq_some_iff.mpr he)
  · intro h a ha
    exact h (List.mem_map.mpr ⟨_, get?_eq_some_iff.mp ha, rfl⟩)

theorem mem_keys_iff {t : Table κ α} {k : κ} : k ∈ t.keys ↔ (t.get? k).isSome := by
  rw [Option.isSome_iff_ne_none, ne_eq, get?_eq_none_iff, Decidable.not_not]

theorem contains_iff_mem_keys {t : Table κ α} {k : κ} : t.contains k ↔ k ∈ t.keys :=
  mem_keys_iff.symm

theorem mem_values_iff {t : Table κ α} {a : α} : a ∈ t.values ↔ ∃ k, t.get? k = some a := by
  constructor
  · intro h
    obtain ⟨e, he, rfl⟩ := List.mem_map.mp h
    exact ⟨e.1, get?_eq_some_iff.mpr he⟩
  · rintro ⟨k, h⟩
    exact List.mem_map.mpr ⟨_, get?_eq_some_iff.mp h, rfl⟩

/-- A trait that no two keys have in common is not doubled in the values. -/
theorem nodup_map_values {β : Type v} {t : Table κ α} {f : α → β}
    (h : ∀ {k k' a a'}, t.get? k = some a → t.get? k' = some a' → f a = f a' → k = k') :
    (t.values.map f).Nodup := by
  have hkeys : t.entries.Pairwise fun e e' => e.1 ≠ e'.1 := List.pairwise_map.mp t.nodup
  rw [values, List.map_map]
  exact List.pairwise_map.mpr (hkeys.imp_of_mem fun he he' hne heq =>
    hne (h (get?_eq_some_iff.mpr he) (get?_eq_some_iff.mpr he') heq))

/-- Tables with the same keys in the same order that hold the same are the same. -/
theorem ext_get? {s t : Table κ α} (hkeys : s.keys = t.keys) (hget : ∀ k, s.get? k = t.get? k) :
    s = t := by
  have hentries : ∀ u : Table κ α,
      u.entries.map some = u.keys.map fun k => (u.get? k).map (Prod.mk k) := by
    intro u
    rw [keys, List.map_map]
    refine List.map_congr_left fun e he => ?_
    show some e = (u.get? e.1).map (Prod.mk e.1)
    rw [get?_eq_some_iff.mpr he, Option.map_some]
  apply ext
  apply (List.map_inj_right fun _ _ => Option.some.inj).mp
  rw [hentries s, hentries t, hkeys, funext hget]

@[simp] theorem get?_empty (k : κ) : (empty : Table κ α).get? k = none := rfl

@[simp] theorem get?_mapValues (t : Table κ α) (f : κ → α → α) (k : κ) :
    (t.mapValues f).get? k = (t.get? k).map (f k) := by
  ext b
  rw [get?_eq_some_iff, Option.map_eq_some_iff]
  constructor
  · intro h
    obtain ⟨e, he, heq⟩ := List.mem_map.mp h
    obtain ⟨rfl, rfl⟩ := Prod.mk.inj heq
    exact ⟨e.2, get?_eq_some_iff.mpr he, rfl⟩
  · rintro ⟨a, ha, rfl⟩
    exact List.mem_map.mpr ⟨_, get?_eq_some_iff.mp ha, rfl⟩

theorem get?_modify (t : Table κ α) (k : κ) (f : α → α) (k' : κ) :
    (t.modify k f).get? k' = if k' = k then (t.get? k').map f else t.get? k' := by
  rw [modify, get?_mapValues]
  by_cases h : k' = k
  · simp [h]
  · simp [h]

@[simp] theorem get?_modify_self (t : Table κ α) (k : κ) (f : α → α) :
    (t.modify k f).get? k = (t.get? k).map f := by
  simp [get?_modify]

theorem get?_modify_of_ne (t : Table κ α) {k k' : κ} (f : α → α) (h : k' ≠ k) :
    (t.modify k f).get? k' = t.get? k' := by
  simp [get?_modify, h]

theorem get?_erase (t : Table κ α) (k k' : κ) :
    (t.erase k).get? k' = if k' = k then none else t.get? k' := by
  ext a
  rw [get?_eq_some_iff]
  by_cases h : k' = k
  · simp [erase, h]
  · simp [erase, h, get?_eq_some_iff]

@[simp] theorem get?_erase_self (t : Table κ α) (k : κ) : (t.erase k).get? k = none := by
  simp [get?_erase]

theorem get?_erase_of_ne (t : Table κ α) {k k' : κ} (h : k' ≠ k) :
    (t.erase k).get? k' = t.get? k' := by
  simp [get?_erase, h]

/-- A change of a value that then goes makes no difference. -/
theorem erase_modify (t : Table κ α) (k : κ) (f : α → α) : (t.modify k f).erase k = t.erase k := by
  apply ext
  show (t.entries.map fun e => (e.1, if e.1 = k then f e.2 else e.2)).filter (fun e => e.1 ≠ k) =
    t.entries.filter fun e => e.1 ≠ k
  rw [List.filter_map]
  refine (List.map_congr_left fun e he => ?_).trans (List.map_id _)
  have hne : e.1 ≠ k := of_decide_eq_true (List.mem_filter.mp he).2
  simp [hne]

theorem get?_insert (t : Table κ α) (k : κ) (a : α) (k' : κ) :
    (t.insert k a).get? k' = if k' = k then some a else t.get? k' := by
  unfold insert
  split
  · rename_i hk
    rw [get?_modify]
    by_cases h : k' = k
    · obtain ⟨b, hb⟩ := Option.isSome_iff_exists.mp (mem_keys_iff.mp hk)
      simp [h, hb]
    · simp [h]
  · rename_i hk
    ext b
    rw [get?_eq_some_iff, List.mem_append, List.mem_singleton, Prod.mk.injEq]
    by_cases h : k' = k
    · have hnone : (k, b) ∉ t.entries := fun hb => hk (List.mem_map.mpr ⟨_, hb, rfl⟩)
      simp [h, hnone, eq_comm]
    · simp [h, get?_eq_some_iff]

@[simp] theorem get?_insert_self (t : Table κ α) (k : κ) (a : α) :
    (t.insert k a).get? k = some a := by
  simp [get?_insert]

theorem get?_insert_of_ne (t : Table κ α) {k k' : κ} (a : α) (h : k' ≠ k) :
    (t.insert k a).get? k' = t.get? k' := by
  simp [get?_insert, h]

/-! ### Keys and sizes -/

theorem keys_insert_of_mem {t : Table κ α} {k : κ} (h : k ∈ t.keys) (a : α) :
    (t.insert k a).keys = t.keys := by
  unfold insert
  rw [dif_pos (show k ∈ t.entries.map Prod.fst from h)]
  exact keys_modify ..

theorem size_erase_lt {t : Table κ α} {k : κ} (h : k ∈ t.keys) : (t.erase k).size < t.size := by
  obtain ⟨e, he, hk⟩ := List.mem_map.mp h
  refine List.length_filter_lt_length_iff_exists.mpr ⟨e, he, ?_⟩
  simp [hk]

end GameLobby.Table
