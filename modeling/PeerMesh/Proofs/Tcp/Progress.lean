import PeerMesh.Proofs.Course
import PeerMesh.Proofs.Tcp.Turns

/-!
# How far a call is from its end

A call connects, takes a number, hands over its frame, flushes it, and hears what has come. No move takes it back.

* `Call.left`, `Call.next` : how many of these moves are left, and which is the next;
* `Call.Turn.left_le`, `Call.Turn.left_le_of_next` : no move adds to them, and the next takes one away;
* `Traffic.Sound.exists_next` : the next is possible as soon as there is something to hear, and as soon as nobody dials.
-/

namespace PeerMesh.Tcp

namespace Call

variable {s : Traffic} {t : Nat} {move : Move} {call call' : Call}

/-- How many moves of its own a call is from its end: it connects, takes a number, hands over its frame, flushes it,
and hears what has come. -/
def left (call : Call) : Nat :=
  match call.ending, call.flushed, call.place, call.number, call.connection with
  | some _, _, _, _, _ => 0
  | none, true, _, _, _ => 1
  | none, false, some _, _, _ => 2
  | none, false, none, some _, _ => 3
  | none, false, none, none, some _ => 4
  | none, false, none, none, none => 5

/-- The move after which a call is as many moves from its end. -/
def next (t : Nat) : Nat → Move
  | 0 => .receive t
  | 1 => .flush t
  | 2 => .put t
  | 3 => .register t
  | _ => .connect t

theorem left_le_of_le (hending : call.ending.isSome → call'.ending.isSome) (hflushed : call.flushed → call'.flushed)
    (hplace : call.place.isSome → call'.place.isSome) (hnumber : call.number.isSome → call'.number.isSome)
    (hconnection : call.connection.isSome → call'.connection.isSome) : call'.left ≤ call.left := by
  unfold left
  grind

theorem left_eq_zero : call.left = 0 ↔ call.ending ≠ none := by
  unfold left
  split <;> simp [*]

/-- What a call that is so many moves from its end has got, and what it lacks. -/
theorem of_left_eq_succ {r : Nat} (h : call.left = r + 1) :
    call.ending = none ∧ r ≤ 4 ∧ (r = 0 → call.flushed = true) ∧ (r = 1 → call.place ≠ none) ∧
      (r = 2 → call.place = none ∧ call.number ≠ none) ∧ (r = 3 → call.number = none ∧ call.connection ≠ none) ∧
      (r = 4 → call.connection = none) := by
  unfold left at h
  split at h <;> cases h <;> simp [*]

theorem Turn.left_le (h : call.Turn s t move call') : call'.left ≤ call.left := by
  cases h with
  | passed => exact Nat.le_refl _
  | lost => exact Nat.le_refl _
  | answered => exact Nat.le_refl _
  | acted hopen hacts =>
    cases hacts with
    | dials => exact Nat.le_refl _
    | _ => apply left_le_of_le <;> simp [hopen]

theorem caller?_next (t r : Nat) : (next t r).caller? = some t := by
  unfold next
  split <;> rfl

theorem Turn.acts (h : call.Turn s t move call') (hcaller : move.caller? = some t) :
    call.ending = none ∧ call.Acts s t move call' := by
  cases h with
  | passed hother => exact absurd hcaller hother
  | lost hnobody => cases hnobody.symm.trans hcaller
  | answered => cases hcaller
  | acted hopen hacts => exact ⟨hopen, hacts⟩

/-- The next move of a call takes it nearer to its end, unless it has to dial. -/
theorem Turn.left_le_of_next {r : Nat} (h : call.Turn s t (next t r) call') (hleft : call.left = r + 1)
    (hdials : r = 4 → s.line.ready ≠ .mustDial) : call'.left ≤ r := by
  obtain ⟨hopen, hacts⟩ := h.acts (caller?_next t r)
  obtain ⟨-, hle, -, -, -, -, hfree⟩ := of_left_eq_succ hleft
  have hr : r = 0 ∨ r = 1 ∨ r = 2 ∨ r = 3 ∨ r = 4 := by omega
  rcases hr with rfl | rfl | rfl | rfl | rfl
  · cases hacts <;> exact Nat.le_refl _
  · cases hacts
    unfold left
    split <;> simp_all
  · cases hacts <;> unfold left <;> split <;> simp_all
  · cases hacts
    unfold left
    split <;> simp_all
  · cases hacts with
    | refused => exact Nat.zero_le _
    | connected => unfold left; split <;> simp_all
    | dials _ _ hready => exact absurd hready (hdials rfl)

end Call

namespace Traffic

variable {s : Traffic} {t : Nat} {call : Call}

open Sound (open?_eq_some)

/-- The next move of a call is possible as soon as there is something to hear, and as soon as nobody dials. -/
theorem Sound.exists_next {r : Nat} (h : s.Sound) (ht : s.calls[t]? = some call) (hleft : call.left = r + 1)
    (hmail : r = 0 → call.mail ≠ .empty)
    (hconnection : r = 3 → ∀ n, call.connection = some n → n < s.connections.length)
    (hdialing : r = 4 → s.dialing = none) : ∃ s', s.step? (Call.next t r) = some s' := by
  obtain ⟨hopen, hle, hflushed, hplace, hnumber, hconnected, hfree⟩ := Call.of_left_eq_succ hleft
  have hopen? : s.open? t = some call := open?_eq_some.2 ⟨ht, hopen⟩
  have hr : r = 0 ∨ r = 1 ∨ r = 2 ∨ r = 3 ∨ r = 4 := by omega
  rcases hr with rfl | rfl | rfl | rfl | rfl
  · show ∃ s', s.receive t = some s'
    simp only [Traffic.receive, hopen?, Option.bind_eq_bind, Option.bind_some, hflushed rfl, if_true]
    cases hm : call.mail with
    | empty => exact absurd hm (hmail rfl)
    | answer p r => exact ⟨_, rfl⟩
    | lost => exact ⟨_, rfl⟩
  · show ∃ s', s.flush t = some s'
    obtain ⟨q, hq⟩ := Option.ne_none_iff_exists'.1 (hplace rfl)
    simp [Traffic.flush, hopen?, hq]
  · show ∃ s', s.put t = some s'
    obtain ⟨hplace, hnumber⟩ := hnumber rfl
    obtain ⟨number, hnumber⟩ := Option.ne_none_iff_exists'.1 hnumber
    obtain ⟨n, c, k, hn, hc, -, -⟩ := (h.calls t call ht).numbered number hnumber
    simp only [Traffic.put, hopen?, Option.bind_eq_bind, Option.bind_some, hn, hnumber, hc, hplace]
    cases Wire.send (Wire.frame Wire.request) ⟨number, call.request⟩ with
    | error e => exact ⟨_, rfl⟩
    | ok bytes => exact ⟨_, rfl⟩
  · show ∃ s', s.register t = some s'
    obtain ⟨hnumber, hsome⟩ := hconnected rfl
    obtain ⟨n, hn⟩ := Option.ne_none_iff_exists'.1 hsome
    have hc := List.getElem?_eq_getElem (hconnection rfl n hn)
    obtain ⟨l, hlink⟩ := h.exists_link hc
    simp [Traffic.register, hopen?, hn, hlink, hc, hnumber]
  · show ∃ s', s.connect t = some s'
    simp only [Traffic.connect, hopen?, Option.bind_eq_bind, Option.bind_some, hfree rfl, hdialing rfl]
    cases s.line.ready with
    | refused e => exact ⟨_, rfl⟩
    | connected link => exact ⟨_, rfl⟩
    | mustDial => exact ⟨_, rfl⟩

theorem next_eq_none (h : s.open? t = none) (r : Nat) : s.step? (Call.next t r) = none := by
  unfold Call.next
  split <;> simp [step?, connect, register, put, flush, receive, h]

end Traffic

end PeerMesh.Tcp
