import Mathlib.Data.List.Find
import PeerMesh.Proofs.Identity
import PeerMesh.Proofs.Store.Readings

/-!
# What pushed samples do to a node's own

A node takes over no reading that names itself as the source. But an id is made of both names of an edge in
one piece, so a reading of another node can carry the text of an edge that this node has measured, and take
its place.

* `sample?_push` : what stands in the place of a sample after a push;
* `ownSample_kept_iff` : an own sample is kept exactly when no foreign reading of the push has its text;
* `ownSample_overwritten` : a push after which an own sample is gone.
-/

namespace PeerMesh.Profile

/-- The reading `r` comes from another node, and has the text of `x`: the same names, written one after the
other, and the same kind. -/
def Displaces (me : Profile) (x r : Reading) : Prop :=
  r.source ≠ me.name ∧ r.source ++ r.dest = x.source ++ x.dest ∧ r.kind = x.kind

instance (me : Profile) (x r : Reading) : Decidable (me.Displaces x r) := inferInstanceAs (Decidable (_ ∧ _))

section

variable {s : Store} {readings : List Reading} {id : SampleId} {x : Sample}

theorem ofReading_id_eq_iff (hs : s.Measured)
    (hapart : DigestsApart (s.samples.map (fun y => y.text) ++ readings.map Reading.text))
    (hx : s.sample? id = some x) {r : Reading} (hr : r ∈ readings) :
    (Sample.ofReading r).id = id ↔ r.source ++ r.dest = x.source ++ x.dest ∧ r.kind = x.kind := by
  obtain ⟨hof, hid⟩ := hs id x hx
  rw [hof] at hid
  rw [← SampleId.composite_eq_iff]
  constructor
  · intro h
    refine hapart.composite_eq ?_ ?_ (h.trans hid.symm)
    · exact List.mem_append_right _ (List.mem_map_of_mem hr)
    · exact List.mem_append_left _ (List.mem_map_of_mem (Store.mem_samples.2 ⟨id, hx⟩))
  · intro h
    rw [← hid]
    exact congrArg (fun text => SampleId.mk (digest text)) h

/-- In the place of a sample stands the last foreign reading with its text, if there is one. -/
theorem sample?_push (hs : s.Measured) (me : Profile) (now : Int64)
    (hapart : DigestsApart (s.samples.map (fun y => y.text) ++ readings.map Reading.text))
    (hx : s.sample? id = some x) :
    (me.answer now (.pushSamples readings) s).2.1.sample? id =
      some (((readings.reverse.find? fun r => me.Displaces x.toReading r).map Sample.ofReading).getD x) := by
  show (me.takeOver readings s).sample? id = _
  have hp : ∀ r ∈ readings.reverse,
      decide (decide (r.source ≠ me.name) = true ∧ decide ((Sample.ofReading r).id = id) = true) =
        decide (me.Displaces x.toReading r) := by
    intro r hr
    rw [decide_eq_decide, decide_eq_true_iff, decide_eq_true_iff,
      ofReading_id_eq_iff hs hapart hx (List.mem_reverse.1 hr)]
    rfl
  rw [takeOver_eq, Store.sample?_putReadings, ← List.filter_reverse, List.find?_filter, hx,
    List.find?_congr hp]
  cases readings.reverse.find? fun r => me.Displaces x.toReading r with
  | none => rfl
  | some r => rfl

/-- A push leaves an own sample as it is exactly when no reading of it is a foreign one with the sample's text. -/
theorem ownSample_kept_iff (hs : s.Measured) (me : Profile) (now : Int64)
    (hapart : DigestsApart (s.samples.map (fun y => y.text) ++ readings.map Reading.text))
    (hx : s.sample? id = some x) (hown : x.source = me.name) :
    (me.answer now (.pushSamples readings) s).2.1.sample? id = some x ↔
      ∀ r ∈ readings, ¬ me.Displaces x.toReading r := by
  rw [sample?_push hs me now hapart hx, Option.some.injEq]
  cases hf : readings.reverse.find? fun r => me.Displaces x.toReading r with
  | none =>
    have hno := List.find?_eq_none.1 hf
    refine ⟨fun _ r hr h => ?_, fun _ => rfl⟩
    exact hno r (List.mem_reverse.2 hr) (decide_eq_true h)
  | some r =>
    have hr : r ∈ readings := List.mem_reverse.1 (List.mem_of_find?_eq_some hf)
    have hd : me.Displaces x.toReading r := by simpa using List.find?_some hf
    constructor
    · intro h
      have hsource : r.source = x.source := congrArg (fun y => y.source) h
      exact absurd (hsource.trans hown) hd.1
    · intro h
      exact absurd hd (h r hr)

end

/-- Readings of other edges leave the sample of `eagle` and `goose` alone. -/
theorem ownSample_kept_goose :
    (Profile.answer { name := "eagle", target := "e:1" } 0
      (.pushSamples [⟨"eagle", "goose", .rttTotal, "999", 2⟩, ⟨"eag", "legoose", .rttRequest, "20", 2⟩])
      (Store.putSample {} (.new "eagle" "goose" .rttTotal "10" 1))).2.1.sample?
        (.ofEdge "eagle" "goose" .rttTotal) = some (.new "eagle" "goose" .rttTotal "10" 1) := by
  refine (ownSample_kept_iff (Store.Measured.empty.putSample _) _ 0 ?_ ?_ ?_).2 ?_
  · decide
  · decide
  · rfl
  · decide

/-- A reading of `eag` takes the place of a sample that `eagle` has measured. -/
theorem ownSample_overwritten :
    ∃ (me : Profile) (s : Store) (readings : List Reading) (x : Sample), s.Measured ∧
      DigestsApart (s.samples.map (fun y => y.text) ++ readings.map Reading.text) ∧
      s.sample? x.id = some x ∧ x.source = me.name ∧
      (me.answer 0 (.pushSamples readings) s).2.1.sample? x.id ≠ some x := by
  refine ⟨{ name := "eagle", target := "e:1" }, Store.putSample {} (.new "eagle" "goose" .rttTotal "10" 1),
    [⟨"eag", "legoose", .rttTotal, "999", 2⟩], .new "eagle" "goose" .rttTotal "10" 1, ?_⟩
  exact ⟨Store.Measured.empty.putSample _, by decide, by decide, rfl, by decide⟩

end PeerMesh.Profile
