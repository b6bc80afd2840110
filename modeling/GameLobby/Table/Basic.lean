/-!
# Tables

A table holds at most one value for each key. Its entries are a list without two entries of one
key; changing a value leaves its entry in place, a new key goes to the end. What a table holds is
seen through `get?`.
-/

namespace GameLobby

universe u v

/-- A finite map as a list of entries with distinct keys. -/
structure Table (κ : Type u) (α : Type v) where
  entries : List (κ × α)
  nodup : (entries.map Prod.fst).Nodup

namespace Table

variable {κ : Type u} {α : Type v}

/-- The table without entries. -/
def empty : Table κ α := ⟨[], List.nodup_nil⟩

instance : Inhabited (Table κ α) := ⟨empty⟩

@[ext] theorem ext {s t : Table κ α} (h : s.entries = t.entries) : s = t := by
  cases s; cases t; cases h; rfl

instance [DecidableEq κ] [DecidableEq α] : DecidableEq (Table κ α) := fun s t =>
  if h : s.entries = t.entries then isTrue (ext h) else isFalse fun e => h (e ▸ rfl)

/-- The keys, in entry order. -/
def keys (t : Table κ α) : List κ := t.entries.map Prod.fst

/-- The values, in entry order. -/
def values (t : Table κ α) : List α := t.entries.map Prod.snd

/-- How many entries there are. -/
def size (t : Table κ α) : Nat := t.entries.length

/-- Values changed by `f`, which sees the key too; keys stay. -/
def mapValues (f : κ → α → α) (t : Table κ α) : Table κ α where
  entries := t.entries.map fun e => (e.1, f e.1 e.2)
  nodup := by
    have h : (t.entries.map fun e => (e.1, f e.1 e.2)).map Prod.fst = t.entries.map Prod.fst := by
      simp [Function.comp_def]
    rw [h]
    exact t.nodup

variable [DecidableEq κ]

/-- The value of a key. -/
def get? (t : Table κ α) (k : κ) : Option α :=
  (t.entries.find? (·.1 = k)).map Prod.snd

/-- Whether a key has a value. -/
def contains (t : Table κ α) (k : κ) : Bool :=
  (t.get? k).isSome

/-- The value of `k` changed by `f`, if it has one. -/
def modify (t : Table κ α) (k : κ) (f : α → α) : Table κ α :=
  t.mapValues fun k' a => if k' = k then f a else a

/-- The table without an entry for `k`. -/
def erase (t : Table κ α) (k : κ) : Table κ α where
  entries := t.entries.filter fun e => e.1 ≠ k
  nodup := t.nodup.sublist (List.filter_sublist.map _)

/-- The table with value `a` for `k`. -/
def insert (t : Table κ α) (k : κ) (a : α) : Table κ α :=
  if h : k ∈ t.entries.map Prod.fst then t.modify k fun _ => a
  else
    { entries := t.entries ++ [(k, a)]
      nodup := by
        rw [List.map_append, List.nodup_append]
        refine ⟨t.nodup, by simp, ?_⟩
        intro x hx y hy hxy
        simp only [List.map_cons, List.map_nil, List.mem_singleton] at hy
        exact h (hy ▸ hxy ▸ hx) }

end Table

end GameLobby
