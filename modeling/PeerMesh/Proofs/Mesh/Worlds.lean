import PeerMesh.Proofs.Mesh.Invariant
import PeerMesh.Proofs.World.Running

/-!
# The moves of a mesh are what nodes do

In a world the members of a shared network run their activities, with pools and dials. A mesh is a picture
of it (`Mesh.Depicts`) that has the stores and the announcements only, and its moves keep up with what the
members do:

* `Mesh.Depicts.run_join` : an attempt to join is a question, the answer to it, and the end of the attempt;
* `Mesh.Depicts.run_announce` : an announcement that a member makes is one that its listener hears.
-/

namespace PeerMesh

/-- No two targets reach the same member. -/
theorem SharedNetwork.reach_inj {n : SharedNetwork} {t u : String} {i : Nat} (ht : n.reach t = some i)
    (hu : n.reach u = some i) : t = u :=
  Option.some.inj ((reach_target ht).symm.trans (reach_target hu))

namespace Mesh

def word? (w : World SharedNetwork) (waiting : Nat × Notice) : Option Word :=
  ((w.node? waiting.1).map Prod.fst).map fun host => .ofNotice host waiting.2

/-- The nodes of the mesh are members of the world, with the stores they have there, and the announcements
under way are those that wait to be made. -/
structure Depicts (m : Mesh) (w : World SharedNetwork) : Prop where
  node? : ∀ t r, m.resident? t = some r → ∃ i, w.network.reach t = some i ∧ w.node? i = some (r.profile, r.store)
  words : m.words.Perm (w.outbox.filterMap (word? w))

variable {m m' : Mesh} {w w' : World SharedNetwork}

theorem word?_congr (h : ∀ i, (w'.node? i).map Prod.fst = (w.node? i).map Prod.fst) : word? w' = word? w := by
  funext waiting
  unfold word?
  rw [h]

theorem word?_eq {i : Nat} {host : Profile} {s : Store} (hi : w.node? i = some (host, s)) (notice : Notice) :
    word? w (i, notice) = some (.ofNotice host notice) := by
  unfold word?
  rw [hi]
  rfl

theorem filterMap_word? {i : Nat} {host : Profile} {s : Store} (hi : w.node? i = some (host, s)) (notices : List Notice) :
    (notices.map fun notice => (i, notice)).filterMap (word? w) = notices.map (.ofNotice host) := by
  rw [List.filterMap_map, ← List.filterMap_eq_map]
  exact List.filterMap_congr fun notice _ => word?_eq hi notice

theorem Depicts.start {i : Nat} {root : Profile} (hi : w.members[i]? = some { profile := root })
    (hreach : w.network.reach root.target = some i) (hwaiting : w.outbox = []) : (start root).Depicts w where
  node? t r hr := by
    rw [resident?_start] at hr
    split at hr
    · rename_i ht
      cases hr
      exact ⟨i, by rw [ht, hreach], by rw [World.node?, hi]; rfl⟩
    · cases hr
  words := by
    rw [hwaiting]
    exact List.Perm.nil

/-- What a fresh member of the world does when it joins is what three moves of the mesh do. -/
theorem Depicts.run_join (hm : m.Depicts w) {i : Nat} {node : Profile} {host : String}
    (hi : w.members[i]? = some { profile := node }) (hreach : w.network.reach node.target = some i)
    (hhost : m.IsMember host) (hfresh : m.resident? node.target = none) :
    ∃ m' outcome w', run [.ask node host, .answer node.target, .settle node.target] m = some m' ∧
      w.run i (node.join [host]) = (some outcome, w') ∧ m'.outcomes = (node.peer, outcome) :: m.outcomes ∧
      m'.Depicts w' := by
  obtain ⟨h, hh, hmember⟩ := hhost
  obtain ⟨j, hj, hnode⟩ := hm.node? host h hh
  have hne : host ≠ node.target := by
    rintro rfl
    cases hh.symm.trans hfresh
  have hij : i ≠ j := by
    rintro rfl
    exact hne (SharedNetwork.reach_inj hj hreach)
  obtain ⟨m', hrun, hwords, houtcomes, hresidents⟩ := exists_run_attempt hh hmember hfresh rfl
  obtain ⟨w', hworld, hnetwork, houtbox, hnodes⟩ := World.exists_run_join hi (Or.inl rfl) hj hnode hij rfl
  refine ⟨m', _, w', hrun, hworld, houtcomes, fun t r hr => ?_, ?_⟩
  · rw [hnetwork]
    rw [hresidents] at hr
    split at hr
    · rename_i ht
      split at hr
      · rename_i hu
        cases hr
        exact ⟨i, by rw [ht, hreach], by rw [hnodes, if_pos rfl, if_pos hu]⟩
      · cases hr
    · rename_i ht
      split at hr
      · rename_i hth
        cases hr
        exact ⟨j, by rw [hth, hj], by rw [hnodes, if_neg (Ne.symm hij), if_pos rfl]⟩
      · rename_i hth
        obtain ⟨k, hk, hkn⟩ := hm.node? t r hr
        refine ⟨k, hk, ?_⟩
        rw [hnodes, if_neg, if_neg, hkn]
        · rintro rfl
          exact hth (SharedNetwork.reach_inj hk hj)
        · rintro rfl
          exact ht (SharedNetwork.reach_inj hk hreach)
  · have hprofiles : ∀ k, (w'.node? k).map Prod.fst = (w.node? k).map Prod.fst := by
      intro k
      rw [hnodes]
      split
      · rename_i hk
        rw [hk, World.node?, hi]
        rfl
      · split
        · rename_i hk
          rw [hk, hnode]
          rfl
        · rfl
    rw [hwords, houtbox, List.filterMap_append, word?_congr hprofiles]
    exact hm.words.append (.of_eq (filterMap_word? hnode _).symm)

/-- An announcement that a member of the world makes is heard in the mesh. -/
theorem Depicts.run_announce (hm : m.Depicts w) {i : Nat} {x : Member} {notice : Notice}
    {before after : List (Nat × Notice)} (hwaiting : w.outbox = before ++ (i, notice) :: after)
    (hi : w.members[i]? = some x) (hpool : x.pool.Open notice.listener) :
    ∃ m' w', m.hear (.ofNotice x.profile notice) = some m' ∧
      World.run { w with outbox := before ++ after } i (x.profile.announce notice) = (some (), w') ∧ m'.Depicts w' := by
  have hnode : w.node? i = some (x.profile, x.store) := congrArg (Option.map _) hi
  have hwords : m.words.Perm (.ofNotice x.profile notice :: (before ++ after).filterMap (word? w)) := by
    have h := hm.words
    rw [hwaiting, List.filterMap_append, List.filterMap_cons_some (word?_eq hnode notice)] at h
    rw [List.filterMap_append]
    exact h.trans List.perm_middle
  obtain ⟨m', hhear⟩ := exists_hear (hwords.mem_iff.2 List.mem_cons_self)
  have hears := hear_cases hhear
  obtain ⟨w', hworld, hnetwork, houtbox, hnodes⟩ :=
    World.exists_run_announce (w := { w with outbox := before ++ after }) hi hpool
  refine ⟨m', w', hhear, hworld, fun t r hr => ?_, ?_⟩
  · rw [hnetwork]
    rw [hears.residents] at hr
    split at hr
    · rename_i ht
      obtain ⟨r₀, hr₀, rfl⟩ := Option.map_eq_some_iff.1 hr
      obtain ⟨k, hk, hkn⟩ := hm.node? t r₀ hr₀
      have hto : w.network.reach notice.listener.target = some k := by
        rw [← hk, ht]
        rfl
      refine ⟨k, hk, ?_⟩
      rw [hnodes, if_pos hto]
      exact congrArg (Option.map _) hkn
    · rename_i ht
      obtain ⟨k, hk, hkn⟩ := hm.node? t r hr
      have hto : w.network.reach notice.listener.target ≠ some k := fun h => ht (SharedNetwork.reach_inj hk h)
      refine ⟨k, hk, ?_⟩
      rw [hnodes, if_neg hto]
      exact hkn
  · have hprofiles : ∀ k, (w'.node? k).map Prod.fst = (w.node? k).map Prod.fst := by
      intro k
      rw [hnodes]
      split
      · exact Option.map_map _ _ _
      · rfl
    rw [hears.words, houtbox, word?_congr hprofiles]
    have h := hwords.erase (.ofNotice x.profile notice)
    rwa [List.erase_cons_head] at h

end Mesh

end PeerMesh
