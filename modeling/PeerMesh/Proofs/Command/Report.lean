import PeerMesh.Command.Running
import PeerMesh.Proofs.Text.Json

/-!
# Printed samples

* `Reading.shown` : what a measured value is in JSON;
* `Command.CommandResult.value_report` : that a sample is printed as;
* `Command.CommandResult.samples_read_back` : printed samples are JSON, which gives all of them back but their ids.
-/

namespace PeerMesh

def Reading.shown (r : Reading) : Text.Json.Value :=
  .object [("from", .text r.source), ("key", .text r.kind.name), ("to", .text r.dest), ("ts", .number r.takenAt.toInt),
    ("value", .text r.value)]

theorem SampleKind.name_injective {k k' : SampleKind} (h : k.name = k'.name) : k = k' := by
  cases k <;> cases k' <;> first | rfl | exact absurd h (by decide)

theorem Reading.shown_injective : Function.Injective Reading.shown := by
  intro r r' h
  simp only [shown, Text.Json.Value.object.injEq, List.cons.injEq, Prod.mk.injEq, Text.Json.Value.text.injEq,
    Text.Json.Value.number.injEq, Rat.intCast_inj, true_and, and_true] at h
  obtain ⟨hsource, hkind, hdest, hmoment, hvalue⟩ := h
  cases r
  cases r'
  simp only [mk.injEq]
  exact ⟨hsource, hdest, SampleKind.name_injective hkind, hvalue, Int64.toInt_inj.1 hmoment⟩

namespace Command.CommandResult

open Text

theorem value_report (x : Sample) : (report x).value = x.toReading.shown := by
  simp only [report, Json.value, Json.fieldValues, Reading.shown]

theorem read?_reports (samples : List Sample) :
    Json.read? (Json.list (samples.map report)).pretty = some (.list (samples.map fun x => x.toReading.shown)) := by
  have hvalues : Json.values (samples.map report) = samples.map fun x => x.toReading.shown := by
    induction samples with
    | nil => rfl
    | cons x samples ih => rw [List.map_cons, Json.values, value_report, ih, List.map_cons]
  rw [Json.read?_pretty, Json.value, hvalues]

/-- Printed samples are JSON, whatever texts and moments are in them: a list of one object each. Who prints the same has the
same readings. -/
theorem samples_read_back (samples : List Sample) :
    ∃ text, (measured samples).render = some text ∧
      Json.read? text = some (.list (samples.map fun x => .object [("from", .text x.source), ("key", .text x.kind.name),
        ("to", .text x.dest), ("ts", .number x.takenAt.toInt), ("value", .text x.value)])) ∧
      ∀ others, (measured others).render = some text →
        others.map (fun x => x.toReading) = samples.map fun x => x.toReading := by
  refine ⟨_, rfl, read?_reports samples, fun others h => ?_⟩
  have htext : (Json.list (others.map report)).pretty = (Json.list (samples.map report)).pretty := Option.some.inj h
  have hread := (read?_reports others).symm.trans ((congrArg Json.read? htext).trans (read?_reports samples))
  simp only [Option.some.injEq, Json.Value.list.injEq] at hread
  apply List.map_injective_iff.2 Reading.shown_injective
  rw [List.map_map, List.map_map]
  exact hread

end Command.CommandResult

end PeerMesh
