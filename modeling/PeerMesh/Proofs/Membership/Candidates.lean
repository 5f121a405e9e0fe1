import Mathlib.Data.List.Forall2
import PeerMesh.Proofs.Connection.Caching

/-!
# One candidate after another

A node that joins asks candidates in their order until one answers. What the attempt at a position gives is what
`requestJoin` gives there once the attempts at the positions before it have been made (`reply?`).

* `Profile.asked`, `Profile.reply?` : the surroundings after attempts, and what an attempt gives;
* `Fails`, `FirstAnswer` : an attempt that fails, and the first that is answered;
* `Profile.run_join_of_fails`, `run_join_of_answer`, `run_join_of_never` : all that a run of `join` can come to, in
  any surroundings;
* `World.join_exhausted_iff`, `World.join_nameConflict_iff`, `World.join_joined_iff` : which outcome a member of a
  world comes to, on any network;
* `World.node?_join`, `World.join_ends` : what it does to the store, and that there is an outcome;
* `World.attempt_eq_ok_iff`, `World.fails_attempt_iff`, `World.exists_fst_obtained` : when an attempt is answered and when
  it fails, by what becomes of the dial and of the call;
* `World.JoinLaw`, `World.joinLaw` : all of that, with the attempts that are made.
-/

namespace PeerMesh

/-- An attempt fails: no connection, an error of the call, or an answer of another kind. -/
def Fails (attempt : Nat → Option (Except PeerError JoinReply)) (k : Nat) : Prop := ∃ e, attempt k = some (.error e)

/-- An attempt is answered, and all before it fail. -/
def FirstAnswer (attempt : Nat → Option (Except PeerError JoinReply)) (k : Nat) (reply : JoinReply) : Prop :=
  attempt k = some (.ok reply) ∧ ∀ p < k, Fails attempt p

theorem Fails.ne_ok {attempt : Nat → Option (Except PeerError JoinReply)} {k : Nat} (h : Fails attempt k)
    (reply : JoinReply) : attempt k ≠ some (.ok reply) := by
  obtain ⟨e, he⟩ := h
  intro hreply
  rw [he] at hreply
  cases hreply

theorem exists_first (attempt : Nat → Option (Except PeerError JoinReply)) (n : Nat) :
    (∀ k < n, Fails attempt k) ∨
      ∃ k < n, (∀ p < k, Fails attempt p) ∧ (attempt k = none ∨ ∃ reply, attempt k = some (.ok reply)) := by
  induction n with
  | zero => exact Or.inl fun k hk => absurd hk (Nat.not_lt_zero k)
  | succ n ih =>
    rcases ih with hall | ⟨k, hk, hfirst⟩
    · cases h : attempt n with
      | none => exact Or.inr ⟨n, Nat.lt_succ_self n, hall, Or.inl h⟩
      | some result =>
        cases result with
        | ok reply => exact Or.inr ⟨n, Nat.lt_succ_self n, hall, Or.inr ⟨reply, h⟩⟩
        | error e =>
          refine Or.inl fun k hk => ?_
          rcases Nat.lt_succ_iff_lt_or_eq.1 hk with hk | hk
          · exact hall k hk
          · exact ⟨e, hk ▸ h⟩
    · exact Or.inr ⟨k, by omega, hfirst⟩

namespace Profile

section

variable {σ : Type} (answer : (e : Effect) → σ → Option e.Result × σ) (me : Profile)

/-- The surroundings once candidates have been asked in their order, whatever each of them gave. -/
def asked : List String → σ → σ
  | [], s => s
  | c :: cs, s => asked cs ((me.requestJoin c).run answer s).2

/-- What the candidate at a position gives when those before it have been asked. There is nothing if the attempt
never comes to an end, or if there is no such position. -/
def reply? (cs : List String) (s : σ) (k : Nat) : Option (Except PeerError JoinReply) :=
  cs[k]?.bind fun c => ((me.requestJoin c).run answer (me.asked answer (cs.take k) s)).1

def settleJoin (candidate : String) (reply : JoinReply) : Activity JoinOutcome :=
  if reply.nameUnique then do
    Activity.onStore fun s => ((), me.adopt candidate reply s)
    pure (.joined reply.responder)
  else pure (.nameConflict candidate)

end

section

variable {σ : Type} {answer : (e : Effect) → σ → Option e.Result × σ} {me : Profile} {cs : List String} {s : σ}

theorem asked_append (ds : List String) : me.asked answer (cs ++ ds) s = me.asked answer ds (me.asked answer cs s) := by
  induction cs generalizing s with
  | nil => rfl
  | cons c cs ih => exact ih

theorem reply?_cons (c : String) (k : Nat) :
    me.reply? answer (c :: cs) s (k + 1) = me.reply? answer cs ((me.requestJoin c).run answer s).2 k := rfl

theorem reply?_take {n k : Nat} (h : k < n) : me.reply? answer (cs.take n) s k = me.reply? answer cs s k := by
  unfold reply?
  rw [List.getElem?_take_of_lt h, List.take_take, Nat.min_eq_left (Nat.le_of_lt h)]

theorem lt_of_reply? {k : Nat} {result : Except PeerError JoinReply} (h : me.reply? answer cs s k = some result) :
    k < cs.length := by
  obtain ⟨c, hc, -⟩ := Option.bind_eq_some_iff.1 h
  exact (List.getElem?_eq_some_iff.1 hc).1

theorem run_requestJoin {k : Nat} {c : String} (hc : cs[k]? = some c) :
    (me.requestJoin c).run answer (me.asked answer (cs.take k) s) =
      (me.reply? answer cs s k, me.asked answer (cs.take (k + 1)) s) := by
  have htake : cs.take (k + 1) = cs.take k ++ [c] := by
    rw [List.take_add_one, hc]
    rfl
  unfold reply?
  rw [hc, htake, asked_append]
  rfl

/-! ## All that a run can come to -/

theorem run_join_cons {c : String} (h : Fails (me.reply? answer (c :: cs) s) 0) :
    (me.join (c :: cs)).run answer s = (me.join cs).run answer ((me.requestJoin c).run answer s).2 := by
  obtain ⟨e, he⟩ := h
  have hrun : (me.requestJoin c).run answer s = (some (.error e), ((me.requestJoin c).run answer s).2) :=
    Prod.ext he rfl
  rw [join, Activity.run_bind hrun]
  cases cs with
  | nil => rfl
  | cons d ds => rfl

theorem run_join_drop {k : Nat} (h : ∀ p < k, Fails (me.reply? answer cs s) p) :
    (me.join cs).run answer s = (me.join (cs.drop k)).run answer (me.asked answer (cs.take k) s) := by
  induction cs generalizing k s with
  | nil =>
    rw [List.drop_nil, List.take_nil]
    rfl
  | cons c cs ih =>
    cases k with
    | zero => rfl
    | succ k =>
      rw [run_join_cons (h 0 (Nat.succ_pos k))]
      apply ih
      intro p hp
      have hnext := h (p + 1) (by omega)
      exact hnext

theorem run_join_of_fails (h : ∀ p < cs.length, Fails (me.reply? answer cs s) p) :
    (me.join cs).run answer s = (some .exhausted, me.asked answer cs s) := by
  rw [run_join_drop h, List.drop_length, List.take_length]
  rfl

theorem run_join_of_answer {k : Nat} {c : String} {reply : JoinReply} (hc : cs[k]? = some c)
    (h : FirstAnswer (me.reply? answer cs s) k reply) :
    (me.join cs).run answer s = (me.settleJoin c reply).run answer (me.asked answer (cs.take (k + 1)) s) := by
  have hdrop : cs.drop k = c :: cs.drop (k + 1) := by
    obtain ⟨hk, hget⟩ := List.getElem?_eq_some_iff.1 hc
    rw [List.drop_eq_getElem_cons hk, hget]
  have hrun : (me.requestJoin c).run answer (me.asked answer (cs.take k) s) =
      (me.reply? answer cs s k, me.asked answer (cs.take (k + 1)) s) := run_requestJoin hc
  rw [h.1] at hrun
  rw [run_join_drop h.2, hdrop, join, Activity.run_bind hrun]
  rfl

theorem run_join_of_never {k : Nat} (hk : k < cs.length) (hnone : me.reply? answer cs s k = none)
    (h : ∀ p < k, Fails (me.reply? answer cs s) p) :
    (me.join cs).run answer s = (none, me.asked answer (cs.take (k + 1)) s) := by
  have hrun : (me.requestJoin cs[k]).run answer (me.asked answer (cs.take k) s) =
      (me.reply? answer cs s k, me.asked answer (cs.take (k + 1)) s) := run_requestJoin (List.getElem?_eq_getElem hk)
  rw [hnone] at hrun
  rw [run_join_drop h, List.drop_eq_getElem_cons hk, join]
  exact Activity.run_bind_never hrun _

end

/-- What an attempt at a candidate leaves in the trace, the last first: at most one dial and at most one call. -/
def Attempted (me : Profile) (c : String) (events : List Event) : Prop :=
  ∃ dials calls, events = calls ++ dials ∧
    (dials = [] ∨ dials = [.dial c me.security.isSecure .lazy]) ∧
    (calls = [] ∨ ∃ target, calls = [.call target (.joinMesh me.peer)])

end Profile

namespace World

variable {σ : Type} [Network σ]

def attempt (w : World σ) (i : Fin w.members.length) (cs : List String) : Nat → Option (Except PeerError JoinReply) :=
  w.members[i].profile.reply? (answer i ⟨w.tickets⟩) cs { w with tickets := w.tickets + 1 }

/-- The world once a member has made the attempts at the first positions. -/
def attempted (w : World σ) (i : Fin w.members.length) (cs : List String) (n : Nat) : World σ :=
  w.members[i].profile.asked (answer i ⟨w.tickets⟩) (cs.take n) { w with tickets := w.tickets + 1 }

/-- What it comes to when a member of a world joins through candidates. -/
structure JoinLaw (w : World σ) (i : Fin w.members.length) (cs : List String) (outcome : Option JoinOutcome)
    (after : World σ) : Prop where
  exhausted : outcome = some .exhausted ↔ ∀ k < cs.length, Fails (w.attempt i cs) k
  nameConflict : ∀ c, outcome = some (.nameConflict c) ↔
    ∃ k reply, FirstAnswer (w.attempt i cs) k reply ∧ reply.nameUnique = false ∧ cs[k]? = some c
  joined : ∀ peer, outcome = some (.joined peer) ↔
    ∃ k reply, FirstAnswer (w.attempt i cs) k reply ∧ reply.nameUnique = true ∧ reply.responder = peer
  /-- Without an answer, the attempts at all positions are made, and nothing else. -/
  attempts_all : (∀ k < cs.length, Fails (w.attempt i cs) k) → after = w.attempted i cs cs.length
  /-- With an answer, the attempts at the positions up to it are made, and nothing else but to store who let the
  member in and who was told of. -/
  attempts_upto : ∀ k reply c, FirstAnswer (w.attempt i cs) k reply → cs[k]? = some c →
    after = if reply.nameUnique then
        (w.attempted i cs (k + 1)).onMember i fun x =>
          { x with store := w.members[i].profile.adopt c reply x.store }
      else w.attempted i cs (k + 1)
  /-- The attempts leave one another's dials and calls in order, each at most one of both. -/
  trace : ∀ n, ∃ log, List.Forall₂ w.members[i].profile.Attempted (cs.take n) log ∧
    (w.attempted i cs n).trace = log.reverse.flatten.map (fun e => (i.val, e)) ++ w.trace
  /-- Who is not let in has the store that it had. -/
  store : (∀ peer, outcome ≠ some (.joined peer)) → after.node? i = w.node? i
  /-- Nothing but a dial that never ends keeps a member from an outcome. -/
  ends : DialsEnd σ → w.members[i].pool.Settled → outcome ≠ none

section

variable {w : World σ} {i : Nat} {x : Member}

theorem exists_run_requestJoin_any (hi : w.members[i]? = some x) (me : Profile) (c : String) (ticket : Ticket) :
    ∃ result w' events y, (me.requestJoin c).run (answer i ticket) w = (result, w') ∧
      me.Attempted c events ∧ w'.trace = events.map (fun e => (i, e)) ++ w.trace ∧
      w'.members[i]? = some y ∧ y.profile = x.profile ∧
      ((∀ reply, result = some (.ok reply) → reply.nameUnique = false) → y.store = x.store) ∧
      (DialsEnd σ → x.pool.Settled → result ≠ none ∧ y.pool.Settled) := by
  obtain ⟨result, w₁, dials, y, hobtain, hdials, htrace, hy, hprofile, hstore, hends⟩ :=
    exists_run_obtain_any hi me ⟨"", c⟩ ticket
  have hnocall : me.Attempted c dials := ⟨dials, [], rfl, hdials, Or.inl rfl⟩
  unfold Profile.requestJoin
  match result with
  | none =>
    refine ⟨none, w₁, dials, y, Activity.run_bind_never hobtain _, hnocall, htrace, hy, hprofile, fun _ => hstore, ?_⟩
    intro hd hs
    exact absurd rfl (hends hd hs).1
  | some (.error e) =>
    rw [Activity.run_bind hobtain]
    refine ⟨_, w₁, dials, y, rfl, hnocall, htrace, hy, hprofile, fun _ => hstore, fun hd hs => ?_⟩
    exact ⟨Option.some_ne_none _, (hends hd hs).2⟩
  | some (.ok client) =>
    rw [Activity.run_bind hobtain]
    obtain ⟨w₂, z, hcall, htrace₂, hz, hprofile₂, hpool, hstore₂⟩ :=
      exists_run_call_join hy client me.peer ticket
    refine ⟨_, w₂, .call client.target (.joinMesh me.peer) :: dials, z, Activity.run_bind hcall _, ?_, ?_, hz,
      hprofile₂.trans hprofile, fun hrefused => ?_, fun hd hs => ?_⟩
    · exact ⟨dials, [_], rfl, hdials, Or.inr ⟨client.target, rfl⟩⟩
    · rw [htrace₂, htrace]
      rfl
    · rw [← hstore]
      exact hstore₂ fun reply hreply => hrefused reply (congrArg some hreply)
    · rw [hpool]
      exact ⟨Option.some_ne_none _, (hends hd hs).2⟩

theorem exists_asked (hi : w.members[i]? = some x) (me : Profile) (cs : List String) (ticket : Ticket) :
    ∃ log y, List.Forall₂ me.Attempted cs log ∧
      (me.asked (answer i ticket) cs w).trace = log.reverse.flatten.map (fun e => (i, e)) ++ w.trace ∧
      (me.asked (answer i ticket) cs w).members[i]? = some y ∧ y.profile = x.profile ∧
      ((∀ k reply, me.reply? (answer i ticket) cs w k = some (.ok reply) → reply.nameUnique = false) →
        y.store = x.store) ∧
      (DialsEnd σ → x.pool.Settled → ∀ k < cs.length, me.reply? (answer i ticket) cs w k ≠ none) := by
  induction cs generalizing w x with
  | nil => exact ⟨[], x, .nil, rfl, hi, rfl, fun _ => rfl, fun _ _ k hk => absurd hk (Nat.not_lt_zero k)⟩
  | cons c cs ih =>
    obtain ⟨result, w₁, events, y, hrun, hattempted, htrace, hy, hprofile, hstore, hends⟩ :=
      exists_run_requestJoin_any hi me c ticket
    obtain ⟨log, z, hlog, htrace', hz, hprofile', hstore', hends'⟩ := ih hy
    have hasked : me.asked (answer i ticket) (c :: cs) w = me.asked (answer i ticket) cs w₁ := by
      rw [Profile.asked, hrun]
    have hzero : me.reply? (answer i ticket) (c :: cs) w 0 = result := congrArg Prod.fst hrun
    have hsucc : ∀ k, me.reply? (answer i ticket) (c :: cs) w (k + 1) = me.reply? (answer i ticket) cs w₁ k := by
      intro k
      rw [Profile.reply?_cons, hrun]
    rw [hasked]
    refine ⟨events :: log, z, .cons hattempted hlog, ?_, hz, hprofile'.trans hprofile, fun hrefused => ?_, ?_⟩
    · rw [htrace', htrace]
      simp
    · have hfirst : y.store = x.store := by
        apply hstore
        intro reply hreply
        exact hrefused 0 reply (hzero.trans hreply)
      have hrest : z.store = y.store := by
        apply hstore'
        intro k reply hreply
        exact hrefused (k + 1) reply ((hsucc k).trans hreply)
      exact hrest.trans hfirst
    · intro hd hs k hk
      cases k with
      | zero =>
        rw [hzero]
        exact (hends hd hs).1
      | succ k =>
        rw [hsucc]
        exact hends' hd (hends hd hs).2 k (Nat.lt_of_succ_lt_succ hk)

theorem run_settleJoin (hi : w.members[i]? = some x) (me : Profile) (c : String) (reply : JoinReply) (ticket : Ticket) :
    (me.settleJoin c reply).run (answer i ticket) w =
      if reply.nameUnique then
        (some (.joined reply.responder), w.onMember i fun x => { x with store := me.adopt c reply x.store })
      else (some (.nameConflict c), w) := by
  unfold Profile.settleJoin
  split
  · exact Activity.run_bind (run_onStore hi ticket _) _
  · rfl

end

section

variable {w : World σ} {i : Fin w.members.length} {cs : List String}

theorem exists_attempted (w : World σ) (i : Fin w.members.length) (cs : List String) (n : Nat) :
    ∃ y, (w.attempted i cs n).members[i.val]? = some y ∧ y.profile = w.members[i].profile ∧
      ((∀ k < n, ∀ reply, w.attempt i cs k = some (.ok reply) → reply.nameUnique = false) →
        y.store = w.members[i].store) := by
  have hi : { w with tickets := w.tickets + 1 }.members[i.val]? = some w.members[i] := List.getElem?_eq_getElem i.2
  obtain ⟨log, y, -, -, hy, hprofile, hstore, -⟩ :=
    exists_asked hi w.members[i].profile (cs.take n) ⟨w.tickets⟩
  refine ⟨y, hy, hprofile, fun h => hstore fun k reply hreply => ?_⟩
  have hk : k < n := by
    have hlt := Profile.lt_of_reply? hreply
    rw [List.length_take] at hlt
    omega
  rw [Profile.reply?_take hk] at hreply
  exact h k hk reply hreply

theorem node?_attempted {n : Nat} (h : ∀ k < n, ∀ reply, w.attempt i cs k = some (.ok reply) → reply.nameUnique = false) :
    (w.attempted i cs n).node? i = w.node? i := by
  obtain ⟨y, hy, hprofile, hstore⟩ := exists_attempted w i cs n
  have hi : w.members[i.val]? = some w.members[i] := List.getElem?_eq_getElem i.2
  unfold node?
  rw [hy, hi, Option.map_some, Option.map_some, hprofile, hstore h]

theorem node?_attempted_succ {k : Nat} (hbefore : ∀ p < k, Fails (w.attempt i cs) p)
    (hlast : ∀ reply, w.attempt i cs k = some (.ok reply) → reply.nameUnique = false) :
    (w.attempted i cs (k + 1)).node? i = w.node? i := by
  apply node?_attempted
  intro p hp reply hreply
  rcases Nat.lt_succ_iff_lt_or_eq.1 hp with hp | rfl
  · exact absurd hreply ((hbefore p hp).ne_ok reply)
  · exact hlast reply hreply

theorem run_join_all (h : ∀ k < cs.length, Fails (w.attempt i cs) k) :
    w.run i (w.members[i].profile.join cs) = (some .exhausted, w.attempted i cs cs.length) := by
  unfold attempted
  rw [List.take_length]
  exact Profile.run_join_of_fails h

theorem run_join_upto {k : Nat} {reply : JoinReply} {c : String} (h : FirstAnswer (w.attempt i cs) k reply)
    (hc : cs[k]? = some c) :
    w.run i (w.members[i].profile.join cs) =
      if reply.nameUnique then
        (some (.joined reply.responder), (w.attempted i cs (k + 1)).onMember i fun x =>
          { x with store := w.members[i].profile.adopt c reply x.store })
      else (some (.nameConflict c), w.attempted i cs (k + 1)) := by
  obtain ⟨y, hy, -⟩ := exists_attempted w i cs (k + 1)
  exact (Profile.run_join_of_answer hc h).trans (run_settleJoin hy _ c reply _)

theorem run_join_never {k : Nat} (hk : k < cs.length) (hnone : w.attempt i cs k = none)
    (h : ∀ p < k, Fails (w.attempt i cs) p) :
    w.run i (w.members[i].profile.join cs) = (none, w.attempted i cs (k + 1)) :=
  Profile.run_join_of_never hk hnone h

theorem run_join_cases (w : World σ) (i : Fin w.members.length) (cs : List String) :
    ((∀ k < cs.length, Fails (w.attempt i cs) k) ∧
        w.run i (w.members[i].profile.join cs) = (some .exhausted, w.attempted i cs cs.length)) ∨
      (∃ k reply c, FirstAnswer (w.attempt i cs) k reply ∧ cs[k]? = some c ∧ reply.nameUnique = false ∧
        w.run i (w.members[i].profile.join cs) = (some (.nameConflict c), w.attempted i cs (k + 1))) ∨
      (∃ k reply after, FirstAnswer (w.attempt i cs) k reply ∧ reply.nameUnique = true ∧
        w.run i (w.members[i].profile.join cs) = (some (.joined reply.responder), after)) ∨
      ∃ k < cs.length, (∀ p < k, Fails (w.attempt i cs) p) ∧ w.attempt i cs k = none ∧
        w.run i (w.members[i].profile.join cs) = (none, w.attempted i cs (k + 1)) := by
  rcases exists_first (w.attempt i cs) cs.length with hall | ⟨k, hk, hbefore, hnone | ⟨reply, hreply⟩⟩
  · exact Or.inl ⟨hall, run_join_all hall⟩
  · exact Or.inr (Or.inr (Or.inr ⟨k, hk, hbefore, hnone, run_join_never hk hnone hbefore⟩))
  · have hrun := run_join_upto ⟨hreply, hbefore⟩ (List.getElem?_eq_getElem hk)
    cases hunique : reply.nameUnique with
    | true =>
      rw [hunique] at hrun
      exact Or.inr (Or.inr (Or.inl ⟨k, reply, _, ⟨hreply, hbefore⟩, hunique, hrun⟩))
    | false =>
      rw [hunique] at hrun
      exact Or.inr (Or.inl ⟨k, reply, _, ⟨hreply, hbefore⟩, List.getElem?_eq_getElem hk, hunique, hrun⟩)

theorem join_exhausted_iff (w : World σ) (i : Fin w.members.length) (cs : List String) :
    (w.run i (w.members[i].profile.join cs)).1 = some .exhausted ↔ ∀ k < cs.length, Fails (w.attempt i cs) k := by
  refine ⟨fun h => ?_, fun hall => by rw [run_join_all hall]⟩
  rcases w.run_join_cases i cs with ⟨hall, -⟩ | ⟨k, reply, c, -, -, -, hrun⟩ | ⟨k, reply, after, -, -, hrun⟩ |
    ⟨k, -, -, -, hrun⟩
  · exact hall
  all_goals
    rw [hrun] at h
    cases h

theorem join_nameConflict_iff (w : World σ) (i : Fin w.members.length) (cs : List String) (c : String) :
    (w.run i (w.members[i].profile.join cs)).1 = some (.nameConflict c) ↔
      ∃ k reply, FirstAnswer (w.attempt i cs) k reply ∧ reply.nameUnique = false ∧ cs[k]? = some c := by
  constructor
  · intro h
    rcases w.run_join_cases i cs with ⟨-, hrun⟩ | ⟨k, reply, d, hfirst, hd, hunique, hrun⟩ |
      ⟨k, reply, after, -, -, hrun⟩ | ⟨k, -, -, -, hrun⟩
    all_goals
      rw [hrun] at h
      cases h
    exact ⟨k, reply, hfirst, hunique, hd⟩
  · rintro ⟨k, reply, hfirst, hunique, hc⟩
    rw [run_join_upto hfirst hc, hunique]
    rfl

theorem join_joined_iff (w : World σ) (i : Fin w.members.length) (cs : List String) (peer : String) :
    (w.run i (w.members[i].profile.join cs)).1 = some (.joined peer) ↔
      ∃ k reply, FirstAnswer (w.attempt i cs) k reply ∧ reply.nameUnique = true ∧ reply.responder = peer := by
  constructor
  · intro h
    rcases w.run_join_cases i cs with ⟨-, hrun⟩ | ⟨k, reply, c, -, -, -, hrun⟩ |
      ⟨k, reply, after, hfirst, hunique, hrun⟩ | ⟨k, -, -, -, hrun⟩
    all_goals
      rw [hrun] at h
      cases h
    exact ⟨k, reply, hfirst, hunique, rfl⟩
  · rintro ⟨k, reply, hfirst, hunique, rfl⟩
    have hk : k < cs.length := Profile.lt_of_reply? hfirst.1
    rw [run_join_upto hfirst (List.getElem?_eq_getElem hk), hunique]
    rfl

/-- Who is not let in has the store that it had. -/
theorem node?_join (h : ∀ peer, (w.run i (w.members[i].profile.join cs)).1 ≠ some (.joined peer)) :
    (w.run i (w.members[i].profile.join cs)).2.node? i = w.node? i := by
  rcases w.run_join_cases i cs with ⟨hall, hrun⟩ | ⟨k, reply, c, hfirst, -, hunique, hrun⟩ |
    ⟨k, reply, after, -, -, hrun⟩ | ⟨k, -, hbefore, hnone, hrun⟩
  · rw [hrun]
    exact node?_attempted fun k hk reply hreply => absurd hreply ((hall k hk).ne_ok reply)
  · rw [hrun]
    refine node?_attempted_succ hfirst.2 fun reply' hreply' => ?_
    cases hfirst.1.symm.trans hreply'
    exact hunique
  · rw [hrun] at h
    exact absurd rfl (h reply.responder)
  · rw [hrun]
    refine node?_attempted_succ hbefore fun reply hreply => ?_
    cases hnone.symm.trans hreply

/-- On a network on which dials end, a member whose pool is settled comes to an outcome. -/
theorem join_ends (hd : DialsEnd σ) (hs : w.members[i].pool.Settled) :
    (w.run i (w.members[i].profile.join cs)).1 ≠ none := by
  have hi : { w with tickets := w.tickets + 1 }.members[i.val]? = some w.members[i] := List.getElem?_eq_getElem i.2
  obtain ⟨log, y, -, -, -, -, -, hends⟩ := exists_asked hi w.members[i].profile cs ⟨w.tickets⟩
  rcases w.run_join_cases i cs with ⟨-, hrun⟩ | ⟨k, reply, c, -, -, -, hrun⟩ | ⟨k, reply, after, -, -, hrun⟩ |
    ⟨k, hk, -, hnone, -⟩
  · rw [hrun]
    exact Option.some_ne_none _
  · rw [hrun]
    exact Option.some_ne_none _
  · rw [hrun]
    exact Option.some_ne_none _
  · exact absurd hnone (hends hd hs k hk)

end

/-! ## What an attempt comes to on the network -/

section

variable {w : World σ} {i : Nat} {x : Member}

/-- An attempt passes on why there is no client, or else what the candidate says to the request to join. -/
theorem fst_run_requestJoin (w : World σ) (i : Nat) (ticket : Ticket) (me : Profile) (c : String) :
    ((me.requestJoin c).run (answer i ticket) w).1 =
      match (me.obtain ⟨"", c⟩).run (answer i ticket) w with
      | (none, _) => none
      | (some (.error e), _) => some (.error e)
      | (some (.ok client), w₁) => some (Client.joinReply client.target (w₁.hears client (.joinMesh me.peer))) := by
  unfold Profile.requestJoin
  match hobtain : (me.obtain ⟨"", c⟩).run (answer i ticket) w with
  | (none, w₁) => rw [Activity.run_bind_never hobtain]
  | (some (.error e), w₁) =>
    rw [Activity.run_bind hobtain]
    rfl
  | (some (.ok client), w₁) =>
    obtain ⟨w₂, hcall, -⟩ := w₁.exists_run_call_any i client (.joinMesh me.peer) ticket
    rw [Activity.run_bind hobtain]
    exact congrArg Prod.fst (Activity.run_bind hcall _)

theorem exists_neat_requestJoin (hd : DialsEnd σ) (hi : w.members[i]? = some x) (hx : x.pool.Neat) (me : Profile)
    (c : String) (ticket : Ticket) :
    ∃ y, ((me.requestJoin c).run (answer i ticket) w).2.members[i]? = some y ∧ y.pool.Neat := by
  obtain ⟨result, w₁, y, hobtain, hy, hneat⟩ := exists_neat_obtain hd hi hx me ⟨"", c⟩ ticket
  unfold Profile.requestJoin
  rw [Activity.run_bind hobtain]
  cases result with
  | error e => exact ⟨y, hy, hneat⟩
  | ok client =>
    obtain ⟨w₂, z, hcall, -, hz, -, hpool, -⟩ := exists_run_call_join hy client me.peer ticket
    have hrun := Activity.run_bind hcall fun result =>
      (pure (Client.joinReply client.target result) : Activity (Except PeerError JoinReply))
    exact ⟨z, (congrArg (fun r => r.2.members[i]?) hrun).trans hz, hpool ▸ hneat⟩

theorem exists_neat_asked (hd : DialsEnd σ) (hi : w.members[i]? = some x) (hx : x.pool.Neat) (me : Profile)
    (cs : List String) (ticket : Ticket) :
    ∃ y, (me.asked (answer i ticket) cs w).members[i]? = some y ∧ y.pool.Neat := by
  induction cs generalizing w x with
  | nil => exact ⟨x, hi, hx⟩
  | cons c cs ih =>
    obtain ⟨y, hy, hneat⟩ := exists_neat_requestJoin hd hi hx me c ticket
    exact ih hy hneat

/-- An attempt gives a reply exactly if there is a client, and the candidate answers the request to join in time. -/
theorem requestJoin_eq_ok_iff {ticket : Ticket} {me : Profile} {c : String} {reply : JoinReply} :
    ((me.requestJoin c).run (answer i ticket) w).1 = some (.ok reply) ↔
      ∃ client w₁, (me.obtain ⟨"", c⟩).run (answer i ticket) w = (some (.ok client), w₁) ∧
        w₁.hears? client (.joinMesh me.peer) = some (.ok (.joinMesh reply)) := by
  rw [fst_run_requestJoin]
  match (me.obtain ⟨"", c⟩).run (answer i ticket) w with
  | (none, w₁) => simp
  | (some (.error e), w₁) => simp
  | (some (.ok client), w₁) => simp [Client.joinReply_eq_ok_iff, hears_eq_ok_iff]

/-- It fails exactly if there is no client for the candidate, or no such answer comes in time. -/
theorem requestJoin_fails_iff {ticket : Ticket} {me : Profile} {c : String} :
    (∃ e, ((me.requestJoin c).run (answer i ticket) w).1 = some (.error e)) ↔
      (∃ e w₁, (me.obtain ⟨"", c⟩).run (answer i ticket) w = (some (.error e), w₁)) ∨
      ∃ client w₁, (me.obtain ⟨"", c⟩).run (answer i ticket) w = (some (.ok client), w₁) ∧
        ∀ reply, w₁.hears? client (.joinMesh me.peer) ≠ some (.ok (.joinMesh reply)) := by
  rw [fst_run_requestJoin]
  match (me.obtain ⟨"", c⟩).run (answer i ticket) w with
  | (none, w₁) => simp
  | (some (.error e), w₁) => simp
  | (some (.ok client), w₁) =>
    have hreply : (∃ e, Client.joinReply client.target (w₁.hears client (.joinMesh me.peer)) = .error e) ↔
        ∀ reply, w₁.hears? client (.joinMesh me.peer) ≠ some (.ok (.joinMesh reply)) := by
      cases h : Client.joinReply client.target (w₁.hears client (.joinMesh me.peer)) with
      | ok reply =>
        rw [Client.joinReply_eq_ok_iff, hears_eq_ok_iff] at h
        simp [h]
      | error e =>
        refine iff_of_true ⟨e, rfl⟩ fun reply hreply => ?_
        rw [Client.joinReply_eq_ok_iff.2 (hears_eq_ok_iff.2 hreply)] at h
        cases h
    simpa using hreply

end

section

variable {w : World σ} {i : Fin w.members.length} {cs : List String} {k : Nat} {c : String}

/-- The client of a member for a candidate once those at the positions before have been asked, or why it has none. -/
def obtained (w : World σ) (i : Fin w.members.length) (cs : List String) (k : Nat) (c : String) :
    Option (Except PeerError Client) × World σ :=
  (w.members[i].profile.obtain ⟨"", c⟩).run (answer i ⟨w.tickets⟩) (w.attempted i cs k)

theorem attempt_eq (hc : cs[k]? = some c) : w.attempt i cs k =
    ((w.members[i].profile.requestJoin c).run (answer i ⟨w.tickets⟩) (w.attempted i cs k)).1 :=
  (congrArg Prod.fst (Profile.run_requestJoin hc)).symm

theorem attempt_eq_ok_iff (hc : cs[k]? = some c) {reply : JoinReply} :
    w.attempt i cs k = some (.ok reply) ↔ ∃ client w₁, w.obtained i cs k c = (some (.ok client), w₁) ∧
      w₁.hears? client (.joinMesh w.members[i].profile.peer) = some (.ok (.joinMesh reply)) := by
  rw [attempt_eq hc]
  exact requestJoin_eq_ok_iff

theorem fails_attempt_iff (hc : cs[k]? = some c) :
    Fails (w.attempt i cs) k ↔ (∃ e w₁, w.obtained i cs k c = (some (.error e), w₁)) ∨
      ∃ client w₁, w.obtained i cs k c = (some (.ok client), w₁) ∧
        ∀ reply, w₁.hears? client (.joinMesh w.members[i].profile.peer) ≠ some (.ok (.joinMesh reply)) := by
  unfold Fails
  rw [attempt_eq hc]
  exact requestJoin_fails_iff

/-- On a network on which dials end the client is one that the pool has kept, or else one lazy dial decides. -/
theorem exists_fst_obtained (hd : DialsEnd σ) (hx : w.members[i].pool.Neat) (cs : List String) (k : Nat) (c : String) :
    ∃ y, (w.attempted i cs k).members[i.val]? = some y ∧
      (w.obtained i cs k c).1 =
        match y.pool.client? (Peer.mk "" c).id with
        | some client => some (.ok client)
        | none => (Network.awaitDial (w.attempted i cs k).network ⟨(w.attempted i cs k).dialed, c⟩
            w.members[i].profile.security).1.map (w.members[i].profile.clientOf c) := by
  have hi : { w with tickets := w.tickets + 1 }.members[i.val]? = some w.members[i] := List.getElem?_eq_getElem i.2
  obtain ⟨y, hy, hneat⟩ := exists_neat_asked hd hi hx w.members[i].profile (cs.take k) ⟨w.tickets⟩
  exact ⟨y, hy, fst_run_obtain hy hneat _ ⟨"", c⟩ _⟩

end

/-- A member that joins asks the candidates in order up to the first that answers, and what that one answers decides.
Dials that fail or run into no connection, calls that fail or come too late, and answers of another kind are passed
over. -/
theorem joinLaw (w : World σ) (i : Fin w.members.length) (cs : List String) :
    w.JoinLaw i cs (w.run i (w.members[i].profile.join cs)).1 (w.run i (w.members[i].profile.join cs)).2 where
  exhausted := w.join_exhausted_iff i cs
  nameConflict := w.join_nameConflict_iff i cs
  joined := w.join_joined_iff i cs
  attempts_all hall := by rw [run_join_all hall]
  attempts_upto k reply c h hc := by
    rw [run_join_upto h hc]
    split
    · rfl
    · rfl
  trace n := by
    have hi : { w with tickets := w.tickets + 1 }.members[i.val]? = some w.members[i] := List.getElem?_eq_getElem i.2
    obtain ⟨log, y, hlog, htrace, -⟩ := exists_asked hi w.members[i].profile (cs.take n) ⟨w.tickets⟩
    exact ⟨log, hlog, htrace⟩
  store := node?_join
  ends := join_ends

/-- A world of one member, in which the target `c:1` loses a call and answers the next one with something else, and
`d:1` lets the member in. Nothing else listens. -/
def scripted : World ScriptedNetwork where
  members := [{ profile := { name := "a", target := "a:1" } }]
  network := (ScriptedNetwork.setRoute {} "c:1" { calls := ⟨[.now .lost, .now (.respond .empty)]⟩ }).setRoute
    "d:1" { calls := ⟨[.now (.respond (.joinMesh ⟨true, "d", []⟩))]⟩ }

/-- The fourth candidate answers. One dial fails, two calls on one connection fail, and the last candidate is not
asked. -/
theorem join_scripted :
    let candidates := ["b:1", "c:1", "c:1", "d:1", "e:1"]
    let i : Fin scripted.members.length := ⟨0, by decide⟩
    let ended := scripted.run i (scripted.members[i].profile.join candidates)
    ended.1 = some (.joined "d") ∧ ended.2.trace.length = 6 ∧
      ∃ k reply, FirstAnswer (scripted.attempt i candidates) k reply ∧ reply.nameUnique = true ∧
        reply.responder = "d" := by
  intro candidates i ended
  have houtcome : ended.1 = some (.joined "d") := by decide
  have htrace : ended.2.trace.length = 6 := by decide
  exact ⟨houtcome, htrace, ((joinLaw scripted i candidates).joined "d").1 houtcome⟩

end World

end PeerMesh
