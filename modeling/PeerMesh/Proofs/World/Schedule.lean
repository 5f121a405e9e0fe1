import PeerMesh.Membership.Serving
import PeerMesh.Proofs.World.Stores

/-!
# Activities that nothing keeps waiting

The scheduler lets every task go on until it has to wait. An activity that never has to comes to its end in the first round.

* `Effect.Prompt` : effects whose result is there at once. Answering a request takes no others (`Profile.only_prompt_serve`);
* `World.poll_of_prompt` : a task with such effects only is done after one turn, with what it gives while nobody else does
  anything;
* `World.rounds_of_value` : a task that is done stays as it is in all rounds;
* `World.together_of_prompt` : so nothing that happens in later rounds changes its value.
-/

namespace PeerMesh

/-- The result of the effect is there at once, whatever the others do. -/
def Effect.Prompt : Effect → Prop
  | claim _ => False
  | dial .. => False
  | call .. => False
  | _ => True

theorem Profile.only_prompt_serve (me : Profile) (request : Request) : (me.serve request).Only Effect.Prompt := by
  have hother : (me.serveAtOnce request).Only Effect.Prompt := by
    refine (Activity.only_ask trivial).bind fun now => (Activity.only_onStore trivial).bind fun answer => ?_
    exact (Activity.only_ask trivial).bind fun _ => trivial
  cases request with
  | joinMesh joiner =>
    refine Activity.Only.bind ((Activity.only_onStore trivial).bind fun taken => ?_) fun _ => trivial
    split
    · trivial
    · refine (Activity.only_onStore trivial).bind fun _ => (Activity.only_onStore trivial).bind fun _ => ?_
      exact (Activity.only_ask trivial).bind fun _ => trivial
  | _ => exact hother

namespace World

variable {σ α : Type} [Network σ] {w w' : World σ} {i : Nat} {ticket : Ticket}

theorem exists_perform_of_prompt (w : World σ) (i : Nat) (ticket : Ticket) {e : Effect} (he : e.Prompt) :
    ∃ r w', w.perform i ticket e = (.ready w.elapsed r, w') ∧ w'.elapsed = w.elapsed := by
  cases e with
  | claim slot => exact he.elim
  | dial target security mode limit => exact he.elim
  | call channel request limit => exact he.elim
  | _ => exact ⟨_, _, rfl, rfl⟩

theorem poll_of_prompt {x : Activity α} (hx : x.Only Effect.Prompt) (i : Nat) (ticket : Ticket) (w : World σ) :
    ∃ a w', x.run (answer i ticket) w = (some a, w') ∧
      ∀ moved, (poll i ticket moved x w).rest = .done a ∧ (poll i ticket moved x w).world = w' := by
  induction x generalizing w with
  | done a => exact ⟨a, w, rfl, fun _ => ⟨rfl, rfl⟩⟩
  | perform e next ih =>
    obtain ⟨r, w₁, hperform, helapsed⟩ := exists_perform_of_prompt w i ticket hx.1
    obtain ⟨a, w', hrun, hpoll⟩ := ih r (hx.2 r) w₁
    have hanswer : answer i ticket e w = (some r, w₁) :=
      (Activity.run_ask _ e w).symm.trans (run_now hperform helapsed.symm)
    refine ⟨a, w', ?_, fun moved => ?_⟩
    · simp only [Activity.run, hanswer, hrun]
    · simp only [poll, hperform, helapsed, Nat.le_refl, if_true]
      exact hpoll true

theorem rounds_of_value {t : Task (Option α)} {v : Option α} (h : t.value? = some v) (n : Nat) (ts : List (Task (Option α)))
    (w : World σ) : ∃ ts', (rounds n (t :: ts) w).1 = t :: ts' := by
  have hdone : t.alive = false := by
    unfold Task.alive
    rw [h]
    rfl
  induction n generalizing ts w with
  | zero => exact ⟨ts, rfl⟩
  | succ n ih =>
    have hpoll : w.pollAll (t :: ts) = (t :: (w.pollAll ts).1, (w.pollAll ts).2) := by
      simp only [pollAll, hdone, Bool.false_and, Bool.false_eq_true, if_false]
    simp only [rounds, hpoll, List.cons_append]
    split
    · exact ih _ _
    · split
      · exact ih _ _
      · exact ⟨_, rfl⟩

theorem exists_pollAll_of_prompt {t : Task α} (hrest : t.rest.Only Effect.Prompt) (hstuck : t.stuck = false)
    (hwake : t.wake ≤ w.elapsed) {a : α} (hrun : t.rest.run (answer t.member t.ticket) w = (some a, w')) :
    ∃ t' moved, w.pollAll [t] = ([t'], moved, w') ∧ t'.value? = some a := by
  obtain ⟨b, w₁, hrun₁, hpoll⟩ := poll_of_prompt hrest t.member t.ticket w
  cases hrun.symm.trans hrun₁
  obtain ⟨hdone, hworld⟩ := hpoll false
  cases halive : t.alive with
  | true =>
    simp only [pollAll, halive, decide_eq_true hwake, Bool.true_and, if_true, hdone, hworld]
    exact ⟨_, _, rfl, rfl⟩
  | false =>
    simp only [pollAll, halive, Bool.false_and, Bool.false_eq_true, if_false]
    have hvalue : ∃ v, t.value? = some v := by
      unfold Task.alive at halive
      rw [hstuck, Bool.not_false, Bool.and_true] at halive
      exact Option.isSome_iff_exists.1 (Option.isNone_eq_false_iff.1 halive)
    unfold Task.value? at hvalue ⊢
    cases hrest' : t.rest with
    | done v =>
      rw [hrest'] at hrun
      cases hrun
      exact ⟨t, false, rfl, by rw [hrest']⟩
    | perform e next =>
      rw [hrest'] at hvalue
      obtain ⟨v, hv⟩ := hvalue
      cases hv

/-- What is done in the first round has its value, however many rounds there are and whatever happens in them. -/
theorem together_of_prompt {x : Activity α} (hx : x.Only Effect.Prompt) {a : α} (hrun : w.run i x = (some a, w')) (n : Nat) :
    (w.together (n + 1) [(i, x)]).1 = [some a] := by
  have hsome : (some <$> x).Only Effect.Prompt := hx.bind fun _ => trivial
  have hrun' : (some <$> x).run (answer i ⟨w.tickets⟩) { w with tickets := w.tickets + 1 } = (some (some a), w') :=
    Activity.run_map hrun some
  obtain ⟨t, moved, hpoll, hvalue⟩ := exists_pollAll_of_prompt (w := { w with tickets := w.tickets + 1 })
    (t := { member := i, ticket := ⟨w.tickets⟩, rest := some <$> x }) hsome rfl (Nat.zero_le _) hrun'
  have hrounds : ∃ ts, (rounds (n + 1) [{ member := i, ticket := ⟨w.tickets⟩, rest := some <$> x }]
      { w with tickets := w.tickets + 1 }).1 = t :: ts := by
    simp only [rounds, hpoll, List.singleton_append]
    split
    · exact rounds_of_value hvalue _ _ _
    · split
      · exact rounds_of_value hvalue _ _ _
      · exact ⟨_, rfl⟩
  obtain ⟨ts, hts⟩ := hrounds
  show ((rounds (n + 1) [{ member := i, ticket := ⟨w.tickets⟩, rest := some <$> x }]
    { w with tickets := w.tickets + 1 }).1.take 1).map (fun t => t.value?.join) = [some a]
  rw [hts]
  simp only [List.take_succ_cons, List.take_zero, List.map_cons, List.map_nil, hvalue, Option.join_some]

end World

end PeerMesh
