import PeerMesh.Membership.Answering
import PeerMesh.Proofs.Store.Lookup

/-!
# Samples in a store

* `Reading.text` : the text whose digest names the reading's sample;
* `Store.Measured` : every sample is kept under the id of its own edge and kind;
* `Store.putReadings` : one reading after another is put in. The last one of an id stays
  (`Store.sample?_putReadings`).
-/

namespace PeerMesh

def Reading.text (r : Reading) : String := SampleId.composite r.source r.dest r.kind

namespace Store

theorem mem_samples {s : Store} {x : Sample} : x ∈ s.samples ↔ ∃ id, s.sample? id = some x := Table.mem_values

theorem sample?_putSample (s : Store) (x : Sample) (id : SampleId) :
    (s.putSample x).sample? id = if id = x.id then some x else s.sample? id :=
  Table.get?_insert _ _ _ _

/-- Every sample is kept under the id that its edge and kind give. -/
def Measured (s : Store) : Prop := ∀ id x, s.sample? id = some x → x = .ofReading x.toReading ∧ x.id = id

theorem Measured.empty : Measured {} := fun _ _ h => by cases h

theorem Measured.putSample {s : Store} (hs : s.Measured) (r : Reading) : (s.putSample (.ofReading r)).Measured := by
  intro id x h
  rw [sample?_putSample] at h
  split at h
  · rename_i hid
    cases h
    exact ⟨rfl, hid.symm⟩
  · exact hs id x h

theorem putSample_of_sample? {s : Store} {x : Sample} (h : s.sample? x.id = some x) : s.putSample x = s := by
  unfold putSample
  rw [Table.insert_of_get? h]

theorem Measured.map_ofReading {s : Store} (hs : s.Measured) :
    (s.samples.map fun x => x.toReading).map Sample.ofReading = s.samples := by
  rw [List.map_map]
  conv_rhs => rw [← List.map_id s.samples]
  refine List.map_congr_left fun x hx => ?_
  obtain ⟨id, hid⟩ := mem_samples.1 hx
  exact (hs id x hid).1.symm

theorem Measured.nodup_samples {s : Store} (hs : s.Measured) : s.samples.Nodup := by
  have hkeys : s.samples.map Sample.id = s.sampleTable.keys := by
    unfold samples Table.values Table.keys
    rw [List.map_map]
    exact List.map_congr_left fun e he => (hs e.1 e.2 (Table.get?_eq_some.2 he)).2
  apply List.Nodup.of_map Sample.id
  rw [hkeys]
  exact s.sampleTable.nodup

/-! ## Many readings -/

def putReadings (s : Store) (readings : List Reading) : Store :=
  readings.foldl (fun s r => s.putSample (.ofReading r)) s

theorem putReadings_cons (s : Store) (r : Reading) (readings : List Reading) :
    s.putReadings (r :: readings) = (s.putSample (.ofReading r)).putReadings readings := rfl

theorem Measured.putReadings {s : Store} (hs : s.Measured) (readings : List Reading) :
    (s.putReadings readings).Measured := by
  induction readings generalizing s with
  | nil => exact hs
  | cons r readings ih => exact ih (hs.putSample r)

theorem nodeTable_putReadings (s : Store) (readings : List Reading) : (s.putReadings readings).nodeTable = s.nodeTable := by
  induction readings generalizing s with
  | nil => rfl
  | cons r readings ih => exact ih (s.putSample (.ofReading r))

theorem sample?_putReadings (s : Store) (readings : List Reading) (id : SampleId) :
    (s.putReadings readings).sample? id =
      ((readings.reverse.find? fun r => (Sample.ofReading r).id = id).map Sample.ofReading).or (s.sample? id) := by
  induction readings generalizing s with
  | nil => rfl
  | cons r readings ih =>
    rw [putReadings_cons, ih, sample?_putSample, List.reverse_cons, List.find?_append]
    cases readings.reverse.find? fun r => (Sample.ofReading r).id = id with
    | some last => rfl
    | none =>
      by_cases hid : (Sample.ofReading r).id = id
      · simp [hid]
      · simp [hid, Ne.symm hid]

end Store

theorem Profile.takeOver_eq (me : Profile) (readings : List Reading) (s : Store) :
    me.takeOver readings s = s.putReadings (readings.filter fun r => r.source ≠ me.name) := rfl

theorem Profile.nodeTable_takeOver (me : Profile) (readings : List Reading) (s : Store) :
    (me.takeOver readings s).nodeTable = s.nodeTable :=
  s.nodeTable_putReadings _

end PeerMesh
