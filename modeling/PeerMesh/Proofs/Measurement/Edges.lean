import Mathlib.Data.Finset.Card
import Mathlib.Data.List.Find
import Mathlib.Data.List.Induction
import PeerMesh.Proofs.Identity
import PeerMesh.Proofs.Store.Derived

/-!
# One sample for each measured edge

A node means to keep the last sample of each edge and kind. The id under which it keeps them is the digest of both names
in one piece, so two edges can have one text, and with it one id.

* `Separable` : no two of the written edges have one text;
* `Store.sample?_text`, `Store.length_samples` : the last sample of each text is kept, and nothing else;
* `Store.KeepsLast`, `Store.SparesOthers` : the last sample of each edge is kept, and no sample takes the place of one of
  another edge;
* `Store.one_sample_per_edge_iff` : each of these is so exactly when the written edges are separable;
* `Store.edge_displaced` : two edges of which one sample is left.
-/

namespace PeerMesh

/-- How many values are left when repeats are dropped does not change under a function that tells them apart. -/
theorem length_dedup_map_iff {α β : Type} [DecidableEq α] [DecidableEq β] {f : α → β} {xs : List α} :
    (xs.map f).dedup.length = xs.dedup.length ↔ ∀ x ∈ xs, ∀ y ∈ xs, f x = f y → x = y := by
  have himage : (xs.map f).toFinset = xs.toFinset.image f := by
    ext y
    simp
  rw [← List.card_toFinset, ← List.card_toFinset, himage, Finset.card_image_iff]
  simp only [Set.InjOn, Finset.mem_coe, List.mem_toFinset]

def Reading.edge (r : Reading) : String × String × SampleKind := (r.source, r.dest, r.kind)

def SampleId.textOf (e : String × String × SampleKind) : String := composite e.1 e.2.1 e.2.2

/-- Edges of one kind whose names, written one after the other, agree are one edge. -/
def Separable (readings : List Reading) : Prop :=
  ∀ r ∈ readings, ∀ q ∈ readings, r.source ++ r.dest = q.source ++ q.dest → r.kind = q.kind → r.edge = q.edge

instance (readings : List Reading) : Decidable (Separable readings) :=
  inferInstanceAs (Decidable (∀ r ∈ readings, ∀ q ∈ readings, _))

theorem separable_iff {readings : List Reading} :
    Separable readings ↔ ∀ r ∈ readings, ∀ q ∈ readings, r.text = q.text → r.edge = q.edge := by
  unfold Separable Reading.text
  simp only [SampleId.composite_eq_iff, and_imp]

theorem Reading.text_eq_of_edge {r q : Reading} (h : r.edge = q.edge) : r.text = q.text := congrArg SampleId.textOf h

namespace Store

variable {readings : List Reading}

/-! ## What is kept -/

theorem id_eq_iff_text (hapart : DigestsApart (readings.map Reading.text)) {r q : Reading} (hr : r ∈ readings)
    (hq : q ∈ readings) : (Sample.ofReading r).id = (Sample.ofReading q).id ↔ r.text = q.text := by
  constructor
  · exact hapart.composite_eq (List.mem_map_of_mem hr) (List.mem_map_of_mem hq)
  · exact fun h => congrArg (fun text => SampleId.mk (digest text)) h

/-- Under the id of a reading stands the last one with its text. -/
theorem sample?_text (hapart : DigestsApart (readings.map Reading.text)) {r : Reading} (hr : r ∈ readings) :
    (putReadings {} readings).sample? (.ofEdge r.source r.dest r.kind) =
      (readings.reverse.find? fun q => q.text = r.text).map .ofReading := by
  have hid : ∀ q ∈ readings.reverse,
      decide ((Sample.ofReading q).id = .ofEdge r.source r.dest r.kind) = decide (q.text = r.text) := by
    intro q hq
    rw [decide_eq_decide]
    exact id_eq_iff_text hapart (List.mem_reverse.1 hq) hr
  rw [sample?_putReadings, List.find?_congr hid]
  exact Option.or_none

theorem exists_reading {id : SampleId} {x : Sample} (h : (putReadings {} readings).sample? id = some x) :
    ∃ r ∈ readings, x = .ofReading r ∧ id = (Sample.ofReading r).id := by
  rw [sample?_putReadings, Option.or_eq_some_iff] at h
  rcases h with h | ⟨-, h⟩
  · obtain ⟨r, hr, rfl⟩ := Option.map_eq_some_iff.1 h
    have hid : (Sample.ofReading r).id = id := by simpa using List.find?_some hr
    exact ⟨r, List.mem_reverse.1 (List.mem_of_find?_eq_some hr), rfl, hid.symm⟩
  · cases h

theorem mem_keys_putReadings (readings : List Reading) (id : SampleId) :
    id ∈ (putReadings {} readings).sampleTable.keys ↔ id ∈ readings.map fun r => (Sample.ofReading r).id := by
  have hfound : (putReadings {} readings).sampleTable.get? id =
      (readings.reverse.find? fun r => (Sample.ofReading r).id = id).map Sample.ofReading :=
    (sample?_putReadings {} readings id).trans Option.or_none
  rw [← Table.isSome_get?, hfound, Option.isSome_map, List.find?_isSome]
  simp only [List.mem_reverse, decide_eq_true_eq, List.mem_map]

theorem length_samples (hapart : DigestsApart (readings.map Reading.text)) :
    (putReadings {} readings).samples.length = (readings.map Reading.text).dedup.length := by
  have hkeys : (putReadings {} readings).sampleTable.keys.Perm (readings.map fun r => (Sample.ofReading r).id).dedup := by
    refine (List.perm_ext_iff_of_nodup (putReadings {} readings).sampleTable.nodup (List.nodup_dedup _)).2 fun id => ?_
    rw [List.mem_dedup]
    exact mem_keys_putReadings readings id
  have hids : (readings.map fun r => (Sample.ofReading r).id) =
      (readings.map Reading.text).map fun text => SampleId.mk (digest text) := by
    rw [List.map_map]
    rfl
  calc (putReadings {} readings).samples.length = (putReadings {} readings).sampleTable.keys.length := by
        rw [Table.length_keys]
        exact Table.length_values _
    _ = (readings.map fun r => (Sample.ofReading r).id).dedup.length := hkeys.length_eq
    _ = (readings.map Reading.text).dedup.length := by
        rw [hids, length_dedup_map_iff]
        exact fun a ha b hb h => hapart a ha b hb (congrArg SampleId.word h)

/-! ## What is meant to be kept -/

/-- Under the id of every edge stands its last reading. -/
def KeepsLast (readings : List Reading) : Prop :=
  ∀ r ∈ readings, (putReadings {} readings).sample? (.ofEdge r.source r.dest r.kind) =
    (readings.reverse.find? fun q => q.edge = r.edge).map .ofReading

/-- No reading takes the place of a sample of another edge. -/
def SparesOthers (readings : List Reading) : Prop :=
  ∀ before r after, readings = before ++ r :: after → ∀ id x, (putReadings {} before).sample? id = some x →
    x.edge ≠ r.edge → (putReadings {} (before ++ [r])).sample? id = some x

theorem putReadings_concat (readings : List Reading) (r : Reading) :
    putReadings {} (readings ++ [r]) = (putReadings {} readings).putSample (.ofReading r) :=
  List.foldl_concat ..

theorem keepsLast_iff (hapart : DigestsApart (readings.map Reading.text)) : KeepsLast readings ↔ Separable readings := by
  rw [separable_iff]
  constructor
  · intro h r hr q hq htext
    have hid : SampleId.ofEdge r.source r.dest r.kind = .ofEdge q.source q.dest q.kind :=
      (id_eq_iff_text hapart hr hq).2 htext
    have hlast := h r hr
    rw [hid, h q hq] at hlast
    have hfound : (readings.reverse.find? fun p => decide (p.edge = q.edge)).isSome = true := by
      rw [List.find?_isSome]
      exact ⟨q, List.mem_reverse.2 hq, decide_eq_true rfl⟩
    obtain ⟨p, hp⟩ := Option.isSome_iff_exists.1 hfound
    rw [hp, Option.map_some, eq_comm, Option.map_eq_some_iff] at hlast
    obtain ⟨p', hp', hsame⟩ := hlast
    have hpedge : p.edge = q.edge := by simpa using List.find?_some hp
    have hpedge' : p'.edge = r.edge := by simpa using List.find?_some hp'
    rw [← hpedge, ← hpedge']
    exact congrArg (fun x : Sample => x.toReading.edge) hsame
  · intro h r hr
    have hedge : ∀ q ∈ readings.reverse, decide (q.text = r.text) = decide (q.edge = r.edge) := by
      intro q hq
      rw [decide_eq_decide]
      exact ⟨h q (List.mem_reverse.1 hq) r hr, Reading.text_eq_of_edge⟩
    rw [sample?_text hapart hr, List.find?_congr hedge]

theorem length_samples_iff (hapart : DigestsApart (readings.map Reading.text)) :
    (putReadings {} readings).samples.length = (readings.map Reading.edge).dedup.length ↔ Separable readings := by
  have htexts : readings.map Reading.text = (readings.map Reading.edge).map SampleId.textOf := by
    rw [List.map_map]
    rfl
  rw [length_samples hapart, htexts, length_dedup_map_iff, separable_iff]
  simp only [List.forall_mem_map]
  rfl

theorem sparesOthers_iff (hapart : DigestsApart (readings.map Reading.text)) :
    SparesOthers readings ↔ Separable readings := by
  rw [separable_iff]
  constructor
  · intro h
    induction readings using List.reverseRecOn with
    | nil => exact nofun
    | append_singleton readings r ih =>
      have hold : DigestsApart (readings.map Reading.text) := hapart.mono fun text htext => by
        rw [List.map_append]
        exact List.mem_append_left _ htext
      have hbefore := ih hold fun before q after hsplit => h before q (after ++ [r]) (by simp [hsplit])
      have hnew : ∀ q ∈ readings, q.text = r.text → q.edge = r.edge := by
        intro q hq htext
        by_contra hne
        obtain ⟨p, hp⟩ : ∃ p, readings.reverse.find? (fun p => p.text = q.text) = some p :=
          Option.isSome_iff_exists.1 (List.find?_isSome.2 ⟨q, List.mem_reverse.2 hq, decide_eq_true rfl⟩)
        have hpq : p.text = q.text := by simpa using List.find?_some hp
        have hpedge := hbefore p (List.mem_reverse.1 (List.mem_of_find?_eq_some hp)) q hq hpq
        have hx := sample?_text hold hq
        rw [hp, Option.map_some] at hx
        have hkept := h readings r [] rfl _ _ hx fun hedge => hne (hpedge.symm.trans hedge)
        have hid : SampleId.ofEdge q.source q.dest q.kind = (Sample.ofReading r).id :=
          (id_eq_iff_text hapart (List.mem_append_left _ hq) (by simp)).2 htext
        rw [putReadings_concat, sample?_putSample, if_pos hid] at hkept
        have hreading : r = p := congrArg (fun x : Sample => x.toReading) (Option.some.inj hkept)
        rw [← hreading] at hpedge
        exact hne hpedge.symm
      intro q hq p hp htext
      rcases List.mem_append.1 hq with hq | hq
      · rcases List.mem_append.1 hp with hp | hp
        · exact hbefore q hq p hp htext
        · cases List.mem_singleton.1 hp
          exact hnew q hq htext
      · cases List.mem_singleton.1 hq
        rcases List.mem_append.1 hp with hp | hp
        · exact (hnew p hp htext.symm).symm
        · cases List.mem_singleton.1 hp
          rfl
  · intro h before r after hsplit id x hx hne
    obtain ⟨q, hq, rfl, rfl⟩ := exists_reading hx
    rw [putReadings_concat, sample?_putSample, if_neg, hx]
    intro hid
    have hq' : q ∈ readings := by rw [hsplit]; exact List.mem_append_left _ hq
    have hr : r ∈ readings := by rw [hsplit]; simp
    exact hne (h q hq' r hr ((id_eq_iff_text hapart hq' hr).1 hid))

/-- Readings that are put in one after another. The last one of each text is kept under its id, and there is one sample for
each text. So the last one of each edge is kept, there is one sample for each edge, and none takes the place of one of
another edge, if no two of the edges have one text; and if two of them have, none of the three is so. -/
theorem one_sample_per_edge_iff (hapart : DigestsApart (readings.map Reading.text)) :
    (∀ r ∈ readings, (putReadings {} readings).sample? (.ofEdge r.source r.dest r.kind) =
      (readings.reverse.find? fun q => q.text = r.text).map .ofReading) ∧
    (putReadings {} readings).samples.length = (readings.map Reading.text).dedup.length ∧
    (KeepsLast readings ↔ Separable readings) ∧
    ((putReadings {} readings).samples.length = (readings.map Reading.edge).dedup.length ↔ Separable readings) ∧
    (SparesOthers readings ↔ Separable readings) :=
  ⟨fun _ hr => sample?_text hapart hr, length_samples hapart, keepsLast_iff hapart, length_samples_iff hapart,
    sparesOthers_iff hapart⟩

/-- Readings in both directions and of both kinds, one of them taken twice. -/
def sparing : List Reading :=
  [⟨"eagle", "goose", .rttTotal, "10", 1⟩, ⟨"eagle", "goose", .rttRequest, "4", 1⟩, ⟨"goose", "eagle", .rttTotal, "11", 2⟩,
    ⟨"eagle", "", .rttTotal, "0", 3⟩, ⟨"eagle", "goose", .rttTotal, "9", 4⟩]

theorem sparing_edges :
    (putReadings {} sparing).sample? (.ofEdge "eagle" "goose" .rttTotal) = some (.new "eagle" "goose" .rttTotal "9" 4) ∧
      (putReadings {} sparing).sample? (.ofEdge "eagle" "" .rttTotal) = some (.new "eagle" "" .rttTotal "0" 3) ∧
      (putReadings {} sparing).samples.length = 4 ∧ SparesOthers sparing := by
  have hapart : DigestsApart (sparing.map Reading.text) := by decide
  obtain ⟨-, -, hlast, hlength, hspares⟩ := one_sample_per_edge_iff hapart
  have hseparable : Separable sparing := by decide
  refine ⟨?_, ?_, ?_, hspares.2 hseparable⟩
  · exact hlast.2 hseparable ⟨"eagle", "goose", .rttTotal, "10", 1⟩ (by decide)
  · exact hlast.2 hseparable ⟨"eagle", "", .rttTotal, "0", 3⟩ (by decide)
  · exact (hlength.2 hseparable).trans (by decide)

/-- `eagle` measures `goose`, and `eag` measures `legoose`. One sample is left, which is found for both. -/
theorem edge_displaced :
    ∃ r q : Reading, DigestsApart ([r, q].map Reading.text) ∧ r.edge ≠ q.edge ∧
      (putReadings {} [r, q]).sample? (.ofEdge r.source r.dest r.kind) = some (.ofReading q) ∧
      (putReadings {} [r, q]).samples.length ≠ ([r, q].map Reading.edge).dedup.length ∧
      ¬KeepsLast [r, q] ∧ ¬SparesOthers [r, q] := by
  refine ⟨⟨"eagle", "goose", .rttTotal, "10", 1⟩, ⟨"eag", "legoose", .rttTotal, "999", 2⟩, by decide, by decide, by decide,
    by decide, ?_, ?_⟩
  · rw [keepsLast_iff (by decide)]
    decide
  · rw [sparesOthers_iff (by decide)]
    decide

end Store

end PeerMesh
