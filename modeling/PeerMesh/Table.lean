/-!
# Tables: finite maps that keep an order

* `Table κ α` : pairs of a key and a value, no key twice, in the order of first insertion;
* `get?`, `contains`, `insert`, `modify`, `erase`, `keys`, `values`, `size`;
* `get?_insert`, `get?_modify`, `get?_erase` : what a later look-up finds;
* `keys_insert`, `keys_modify` : an overwritten key keeps its place.

The order is visible (`values`, `find?`), so a statement about every order in which a table may be
walked is a statement about every permutation of its entries.
-/

namespace PeerMesh

/-- A finite map from keys to values whose entries have an order. -/
structure Table (κ : Type) (α : Type) where
  entries : List (κ × α) := []
  nodup : (entries.map Prod.fst).Nodup := by exact List.nodup_nil

namespace Table

variable {κ α : Type}

instance : Inhabited (Table κ α) := ⟨{}⟩

def keys (t : Table κ α) : List κ := t.entries.map Prod.fst

def values (t : Table κ α) : List α := t.entries.map Prod.snd

def size (t : Table κ α) : Nat := t.entries.length

/-- The first value, in order, of which `p` holds. -/
def find? (t : Table κ α) (p : α → Bool) : Option α := t.values.find? p

@[ext] theorem ext {s t : Table κ α} (h : s.entries = t.entries) : s = t := by
  cases s; cases t; cases h; rfl

@[simp] theorem length_keys (t : Table κ α) : t.keys.length = t.size := by simp [keys, size]

@[simp] theorem length_values (t : Table κ α) : t.values.length = t.size := by simp [values, size]

variable [DecidableEq κ]

def get? (t : Table κ α) (k : κ) : Option α :=
  (t.entries.find? (fun e => e.1 = k)).map Prod.snd

def contains (t : Table κ α) (k : κ) : Bool := (t.get? k).isSome

def modify (t : Table κ α) (k : κ) (f : α → α) : Table κ α where
  entries := t.entries.map fun e => if e.1 = k then (e.1, f e.2) else e
  nodup := by
    have : ∀ es : List (κ × α),
        (es.map fun e => if e.1 = k then (e.1, f e.2) else e).map Prod.fst = es.map Prod.fst := by
      intro es
      rw [List.map_map]
      refine List.map_congr_left fun e _ => ?_
      by_cases h : e.1 = k <;> simp [h]
    rw [this]; exact t.nodup

theorem get?_eq_none {t : Table κ α} {k : κ} : t.get? k = none ↔ k ∉ t.keys := by
  simp only [get?, keys, Option.map_eq_none_iff, List.find?_eq_none, decide_eq_true_eq, List.mem_map,
    not_exists, not_and]

theorem isSome_get? {t : Table κ α} {k : κ} : (t.get? k).isSome = true ↔ k ∈ t.keys := by
  rw [Option.isSome_iff_ne_none, Ne, get?_eq_none, Decidable.not_not]

/-- Puts `v` under `k`: in the place of the old value, or else at the end. -/
def insert (t : Table κ α) (k : κ) (v : α) : Table κ α :=
  if h : k ∈ t.keys then t.modify k fun _ => v
  else
    { entries := t.entries ++ [(k, v)]
      nodup := by
        rw [List.map_append, List.nodup_append]
        refine ⟨t.nodup, by simp, ?_⟩
        intro a ha b hb hab
        simp only [List.map_cons, List.map_nil, List.mem_singleton] at hb
        subst hb; subst hab
        exact h ha }

def erase (t : Table κ α) (k : κ) : Table κ α where
  entries := t.entries.filter fun e => e.1 ≠ k
  nodup := t.nodup.sublist (List.filter_sublist.map _)

/-! ## Look-ups after a change -/

@[simp] theorem get?_empty (k : κ) : ({} : Table κ α).get? k = none := rfl

theorem find?_modify (k j : κ) (f : α → α) (es : List (κ × α)) :
    (es.map fun e => if e.1 = k then (e.1, f e.2) else e).find? (fun e => e.1 = j) =
      (es.find? (fun e => e.1 = j)).map fun e => if e.1 = k then (e.1, f e.2) else e := by
  induction es with
  | nil => rfl
  | cons e es ih =>
    by_cases hk : e.1 = k <;> by_cases hj : e.1 = j <;> simp_all

theorem get?_modify (t : Table κ α) (k j : κ) (f : α → α) :
    (t.modify k f).get? j = if j = k then (t.get? j).map f else t.get? j := by
  simp only [get?, modify, find?_modify]
  cases he : t.entries.find? (fun e => decide (e.1 = j)) with
  | none => split <;> rfl
  | some e =>
    have hj : e.1 = j := by simpa using List.find?_some he
    subst hj
    by_cases hk : e.1 = k <;> simp [hk]

theorem get?_insert (t : Table κ α) (k j : κ) (v : α) :
    (t.insert k v).get? j = if j = k then some v else t.get? j := by
  unfold insert
  split
  · rename_i h
    rw [get?_modify]
    split
    · rename_i hjk
      subst hjk
      cases hg : t.get? j with
      | none => exact absurd h (get?_eq_none.1 hg)
      | some _ => rfl
    · rfl
  · rename_i h
    simp only [get?, List.find?_append]
    by_cases hj : j = k
    · subst hj
      have : t.entries.find? (fun e => decide (e.1 = j)) = none := by
        simpa [get?] using get?_eq_none.2 h
      simp [this]
    · have : ¬k = j := fun e => hj e.symm
      simp [hj, this]

theorem get?_erase (t : Table κ α) (k j : κ) :
    (t.erase k).get? j = if j = k then none else t.get? j := by
  simp only [get?, erase, List.find?_filter]
  by_cases hj : j = k
  · subst hj
    simp
  · have : (fun a : κ × α => decide (decide (a.1 ≠ k) = true ∧ decide (a.1 = j) = true)) =
        fun a => decide (a.1 = j) := by
      funext a
      by_cases ha : a.1 = j
      · simp [ha, hj]
      · simp [ha]
    rw [this, if_neg hj]

@[simp] theorem keys_modify (t : Table κ α) (k : κ) (f : α → α) : (t.modify k f).keys = t.keys := by
  simp only [keys, modify, List.map_map]
  refine List.map_congr_left fun e _ => ?_
  by_cases h : e.1 = k <;> simp [h]

theorem keys_insert (t : Table κ α) (k : κ) (v : α) :
    (t.insert k v).keys = if k ∈ t.keys then t.keys else t.keys ++ [k] := by
  unfold insert
  split
  · simp
  · simp [keys]

end Table

end PeerMesh
