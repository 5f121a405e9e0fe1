import Mathlib.Data.List.Forall2

/-!
# Entries of lists that have changed

* `getElem?_of_prefix` : what stays when a list grows;
* `getElem?_set_cases`, `getElem?_concat_cases` : an entry of a changed list is the changed one, or an old one;
* `forall₂_getElem?`, `forall₂_set`, `forall₂_modify` : entries of two lists that are related one by one.
-/

namespace PeerMesh

theorem getElem?_of_prefix {α : Type} {xs ys : List α} (h : xs <+: ys) {k : Nat} {x : α} (hk : xs[k]? = some x) :
    ys[k]? = some x := by
  obtain ⟨zs, rfl⟩ := h
  rw [List.getElem?_append_left (List.getElem?_eq_some_iff.1 hk).1, hk]

theorem getElem?_set_of_some {α : Type} {xs : List α} {k : Nat} {x : α} (hk : xs[k]? = some x) (y : α) (j : Nat) :
    (xs.set k y)[j]? = if k = j then some y else xs[j]? := by
  rw [List.getElem?_set]
  split
  · rename_i hkj
    rw [if_pos (hkj ▸ (List.getElem?_eq_some_iff.1 hk).1)]
  · rfl

theorem getElem?_set_of_some_self {α : Type} {xs : List α} {k : Nat} {x : α} (hk : xs[k]? = some x) (y : α) :
    (xs.set k y)[k]? = some y := by
  rw [getElem?_set_of_some hk, if_pos rfl]

theorem getElem?_set_cases {α : Type} {xs : List α} {k j : Nat} {x y z : α} (hk : xs[k]? = some x)
    (h : (xs.set k y)[j]? = some z) : (j = k ∧ z = y) ∨ (k ≠ j ∧ xs[j]? = some z) := by
  rw [getElem?_set_of_some hk] at h
  split at h
  · rename_i hkj
    exact Or.inl ⟨hkj.symm, (Option.some.inj h).symm⟩
  · rename_i hkj
    exact Or.inr ⟨hkj, h⟩

theorem set_of_some_self {α : Type} {xs : List α} {k : Nat} {x : α} (hk : xs[k]? = some x) : xs.set k x = xs := by
  refine List.ext_getElem? fun j => ?_
  rw [getElem?_set_of_some hk]
  split
  · rename_i hkj
    rw [← hkj, hk]
  · rfl

theorem getElem?_concat_cases {α : Type} {xs : List α} {x y : α} {k : Nat} (h : (xs ++ [x])[k]? = some y) :
    xs[k]? = some y ∨ k = xs.length ∧ y = x := by
  rcases Nat.lt_or_ge k xs.length with hk | hk
  · rw [List.getElem?_append_left hk] at h
    exact Or.inl h
  · rw [List.getElem?_append_right hk] at h
    obtain ⟨hlt, heq⟩ := List.getElem?_eq_some_iff.1 h
    simp only [List.length_singleton] at hlt
    have hzero : k - xs.length = 0 := by omega
    simp only [hzero, List.getElem_cons_zero] at heq
    exact Or.inr ⟨by omega, heq.symm⟩

section

variable {α β : Type} {R : α → β → Prop} {xs : List α} {ys : List β}

theorem forall₂_getElem? (h : List.Forall₂ R xs ys) (k : Nat) : Option.Rel R xs[k]? ys[k]? := by
  induction h generalizing k with
  | nil => exact .none
  | cons hxy _ ih =>
    cases k with
    | zero => exact .some hxy
    | succ k => exact ih k

theorem forall₂_set (h : List.Forall₂ R xs ys) (k : Nat) {x : α} {y : β} (hxy : R x y) :
    List.Forall₂ R (xs.set k x) (ys.set k y) := by
  induction h generalizing k with
  | nil => exact .nil
  | cons hfirst hrest ih =>
    cases k with
    | zero => exact .cons hxy hrest
    | succ k => exact .cons hfirst (ih k)

theorem forall₂_modify (h : List.Forall₂ R xs ys) (k : Nat) {f : α → α} {g : β → β} (hfg : ∀ x y, R x y → R (f x) (g y)) :
    List.Forall₂ R (xs.modify k f) (ys.modify k g) := by
  induction h generalizing k with
  | nil => cases k <;> exact .nil
  | cons hfirst hrest ih =>
    cases k with
    | zero => exact .cons (hfg _ _ hfirst) hrest
    | succ k => exact .cons hfirst (ih k)

end

end PeerMesh
