/-!
# Courses that never end

What must happen, as against what may: an endless course of moves in which nothing that could be done is put off for
ever.

* `Course` : states one after another, each by a move from the one before it;
* `Course.ofMoves` : the course that makes given moves, if they are possible;
* `Course.Fair` : if one of some moves is possible from a time on, one of them is made after that time;
* `Course.always` : what every move preserves;
* `Course.exists_rank_eq_zero` : a measure that no move raises comes to zero, if until then some move that lowers it
  is possible and is not put off. `Course.exists_part_rank_eq_zero` says so of one part of the states.
-/

namespace PeerMesh

/-- States one after another, each by a move from the one before it. -/
structure Course {σ μ : Type} (step? : σ → μ → Option σ) where
  state : Nat → σ
  move : Nat → μ
  step : ∀ i, step? (state i) (move i) = some (state (i + 1))

namespace Course

variable {σ μ : Type} {step? : σ → μ → Option σ}

def stateAfter (step? : σ → μ → Option σ) (s : σ) (move : Nat → μ) : Nat → σ
  | 0 => s
  | i + 1 => (step? (stateAfter step? s move i) (move i)).getD (stateAfter step? s move i)

def ofMoves (s : σ) (move : Nat → μ)
    (h : ∀ i, (step? (stateAfter step? s move i) (move i)).isSome) : Course step? where
  state := stateAfter step? s move
  move := move
  step i := by
    obtain ⟨s', hs'⟩ := Option.isSome_iff_exists.1 (h i)
    rw [stateAfter, hs']
    rfl

def Fair (c : Course step?) (moves : μ → Prop) : Prop :=
  ∀ i, (∀ j, i ≤ j → ∃ m, moves m ∧ step? (c.state j) m ≠ none) → ∃ j, i ≤ j ∧ moves (c.move j)

theorem fair_of_eq_none {c : Course step?} {moves : μ → Prop} {i : Nat}
    (h : ∀ j, i ≤ j → ∀ m, moves m → step? (c.state j) m = none) : c.Fair moves := by
  intro k hable
  obtain ⟨m, hm, hne⟩ := hable (max i k) (Nat.le_max_right i k)
  exact absurd (h _ (Nat.le_max_left i k) m hm) hne

theorem always {c : Course step?} {p : σ → Prop} (hstep : ∀ s m s', p s → step? s m = some s' → p s') {i : Nat}
    (hi : p (c.state i)) {j : Nat} (hij : i ≤ j) : p (c.state j) := by
  induction hij with
  | refl => exact hi
  | step _ ih => exact hstep _ _ _ ih (c.step _)

/-- While `p` lasts, no move raises the measure. As long as it is not zero, some move that lowers it is possible, and
those moves are not put off. -/
theorem exists_rank_eq_zero {c : Course step?} {p : σ → Prop} (rank : σ → Nat) (lowering : Nat → μ → Prop)
    (hstep : ∀ s m s', p s → step? s m = some s' → p s' ∧ rank s' ≤ rank s)
    (hable : ∀ s r, p s → rank s = r + 1 → ∃ m, lowering r m ∧ step? s m ≠ none)
    (hlower : ∀ s m s' r, p s → rank s = r + 1 → lowering r m → step? s m = some s' → rank s' ≤ r)
    (hfair : ∀ r, c.Fair (lowering r)) {i : Nat} (hi : p (c.state i)) :
    ∃ j, i ≤ j ∧ p (c.state j) ∧ rank (c.state j) = 0 := by
  have hlasts : ∀ {i j}, p (c.state i) → i ≤ j → p (c.state j) := fun hp =>
    c.always (fun s m s' hs hm => (hstep s m s' hs hm).1) hp
  suffices h : ∀ r i, p (c.state i) → rank (c.state i) ≤ r → ∃ j, i ≤ j ∧ p (c.state j) ∧ rank (c.state j) = 0 from
    h _ i hi (Nat.le_refl _)
  intro r
  induction r with
  | zero => exact fun i hp hr => ⟨i, Nat.le_refl i, hp, Nat.le_zero.1 hr⟩
  | succ r ih =>
    intro i hp hr
    by_cases hdrop : ∃ j, i ≤ j ∧ rank (c.state j) ≤ r
    · obtain ⟨j, hij, hj⟩ := hdrop
      obtain ⟨k, hjk, hk⟩ := ih j (hlasts hp hij) hj
      exact ⟨k, Nat.le_trans hij hjk, hk⟩
    · -- otherwise the measure stays where it is, and a move that lowers it is possible for ever
      exfalso
      have hstays : ∀ j, i ≤ j → rank (c.state j) = r + 1 := by
        intro j hij
        have hle : p (c.state j) ∧ rank (c.state j) ≤ r + 1 := by
          refine c.always (p := fun s => p s ∧ rank s ≤ r + 1) (fun s m s' hs hm => ?_) ⟨hp, hr⟩ hij
          obtain ⟨hp', hrank⟩ := hstep s m s' hs.1 hm
          exact ⟨hp', Nat.le_trans hrank hs.2⟩
        have hnot : ¬ rank (c.state j) ≤ r := fun h => hdrop ⟨j, hij, h⟩
        omega
      obtain ⟨j, hij, hmove⟩ := hfair r i fun j hij => hable _ r (hlasts hp hij) (hstays j hij)
      have hlow := hlower _ _ _ r (hlasts hp hij) (hstays j hij) hmove (c.step j)
      exact hdrop ⟨j + 1, by omega, hlow⟩

/-- The same for one part of the states, which no move takes away. -/
theorem exists_part_rank_eq_zero {γ : Type} {c : Course step?} {p : σ → γ → Prop} (part? : σ → Option γ)
    (rank : σ → γ → Nat) (lowering : Nat → μ → Prop)
    (hstep : ∀ s x m s', part? s = some x → p s x → step? s m = some s' →
      ∃ x', part? s' = some x' ∧ p s' x' ∧ rank s' x' ≤ rank s x)
    (hable : ∀ s x r, part? s = some x → p s x → rank s x = r + 1 → ∃ m, lowering r m ∧ step? s m ≠ none)
    (hlower : ∀ s x m s' x' r, part? s = some x → p s x → rank s x = r + 1 → lowering r m → step? s m = some s' →
      part? s' = some x' → rank s' x' ≤ r)
    (hfair : ∀ r, c.Fair (lowering r)) {i : Nat} {x : γ} (hpart : part? (c.state i) = some x) (hx : p (c.state i) x) :
    ∃ j x, i ≤ j ∧ part? (c.state j) = some x ∧ p (c.state j) x ∧ rank (c.state j) x = 0 := by
  have rank_eq : ∀ {s : σ} {x : γ}, part? s = some x → (part? s).elim 0 (rank s) = rank s x := by
    intro s x hpart
    rw [hpart]
    rfl
  obtain ⟨j, hij, ⟨x', hpart', hx'⟩, hzero⟩ := exists_rank_eq_zero (c := c) (p := fun s => ∃ x, part? s = some x ∧ p s x)
    (fun s => (part? s).elim 0 (rank s)) lowering
    (by
      rintro s m s' ⟨x, hpart, hx⟩ hm
      obtain ⟨x', hpart', hx', hle⟩ := hstep s x m s' hpart hx hm
      refine ⟨⟨x', hpart', hx'⟩, ?_⟩
      rwa [rank_eq hpart, rank_eq hpart'])
    (by
      rintro s r ⟨x, hpart, hx⟩ hr
      exact hable s x r hpart hx ((rank_eq hpart).symm.trans hr))
    (by
      rintro s m s' r ⟨x, hpart, hx⟩ hr hlow hm
      obtain ⟨x', hpart', -, -⟩ := hstep s x m s' hpart hx hm
      rw [rank_eq hpart']
      exact hlower s x m s' x' r hpart hx ((rank_eq hpart).symm.trans hr) hlow hm hpart')
    hfair ⟨x, hpart, hx⟩
  exact ⟨j, x', hij, hpart', hx', (rank_eq hpart').symm.trans hzero⟩

end Course

end PeerMesh
