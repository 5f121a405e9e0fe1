import PeerMesh.Proofs.Mesh.Acquaintance

/-!
# Joins that overlap at one member

If every node joins through the same member, that member knows all that it let in, and introduces each of them
to all others. So joins may overlap as they like.

* `Mesh.Has` : a node that was let in;
* `Mesh.Central` : the member knows every one of them, and any two of them were introduced (`Central.step`,
  `Central.run`);
* `Mesh.acquainted_of_single_host` : in a quiet mesh every member knows every other one.
-/

namespace PeerMesh.Mesh

variable {T : List String} {root : String} {m m' : Mesh} {t u : String}

def Has (m : Mesh) (target : String) : Prop := ∃ r, m.resident? target = some r ∧ r.standing.accepted = true

/-- The member at `root` lets everybody in. -/
structure Central (T : List String) (root : String) (m : Mesh) : Prop extends Tight T m where
  center : ∃ r, m.resident? root = some r ∧ r.standing = .member ∧
    ∀ t, m.Has t → t ≠ root → r.store.Knows (.ofTarget t)
  host : ∀ t r host, m.resident? t = some r → r.standing.host? = some host → host = root
  introduced : ∀ t u, m.Has t → m.Has u → t ≠ u → m.Introduced t u

/-- A move that lets nobody in. -/
theorem Central.keeps (hm : Central T root m) (hm' : Tight T m') (hhas : ∀ t, m'.Has t → m.Has t)
    (hroot : ∀ r, m.resident? root = some r → r.standing = .member →
      ∃ r', m'.resident? root = some r' ∧ r'.standing = .member ∧ ∀ id, r.store.Knows id → r'.store.Knows id)
    (hhost : ∀ t r host, m'.resident? t = some r → r.standing.host? = some host → host = root)
    (hintro : m'.introductions = m.introductions) : Central T root m' := by
  refine { toTight := hm', center := ?_, host := hhost, introduced := ?_ }
  · obtain ⟨r, hr, hs, hknows⟩ := hm.center
    obtain ⟨r', hr', hs', hmono⟩ := hroot r hr hs
    exact ⟨r', hr', hs', fun t ht hne => hmono _ (hknows t (hhas t ht) hne)⟩
  · intro t u ht hu hne
    rw [introduced_congr hintro]
    exact hm.introduced t u (hhas t ht) (hhas u hu) hne

section Step

variable (hm : Central T root m) (hm' : Tight T m')

include hm hm'

theorem Central.asks {node : Profile} (h : m.Asks node root m') : Central T root m' := by
  refine hm.keeps hm' ?_ ?_ ?_ h.introductions
  · rintro t ⟨r, hr, hacc⟩
    rw [h.residents] at hr
    split at hr
    · cases hr
      cases hacc
    · exact ⟨r, hr, hacc⟩
  · intro r hr hs
    refine ⟨r, ?_, hs, fun _ hk => hk⟩
    rw [h.residents, if_neg, hr]
    rintro rfl
    cases hr.symm.trans h.fresh
  · intro t r host hr hh
    rw [h.residents] at hr
    split at hr
    · cases hr
      cases hh
      rfl
    · exact hm.host t r host hr hh

theorem Central.refuses {joiner host : String} {j member : Resident} (h : m.Refuses joiner j host member m') :
    Central T root m' := by
  refine hm.keeps hm' ?_ ?_ ?_ h.introductions
  · rintro t ⟨r, hr, hacc⟩
    rw [h.residents] at hr
    split at hr
    · cases hr
      cases hacc
    · exact ⟨r, hr, hacc⟩
  · intro r hr hs
    refine ⟨r, ?_, hs, fun _ hk => hk⟩
    rw [h.residents, if_neg (h.ne_of_accepted hr (by rw [hs]; rfl)), hr]
  · intro t r host' hr hh
    rw [h.residents] at hr
    split at hr
    · cases hr
      exact hm.host joiner j host' h.joinerAt (by rw [h.asking]; exact hh)
    · exact hm.host t r host' hr hh

theorem Central.settles {joiner host : String} {j : Resident} {reply : JoinReply}
    (h : m.Settles joiner j host reply m') : Central T root m' := by
  refine hm.keeps hm' ?_ ?_ ?_ h.introductions
  · rintro t ⟨r, hr, hacc⟩
    rw [h.residents] at hr
    split at hr
    · rename_i ht
      rw [ht]
      exact ⟨j, h.joinerAt, by rw [h.answered]; exact h.unique⟩
    · exact ⟨r, hr, hacc⟩
  · intro r hr hs
    refine ⟨r, ?_, hs, fun _ hk => hk⟩
    rw [h.residents, if_neg (h.ne_of_member hr hs), hr]
  · intro t r host' hr hh
    rw [h.residents] at hr
    split at hr
    · cases hr
      cases hh
    · exact hm.host t r host' hr hh

theorem Central.leaves {joiner host : String} {j : Resident} {reply : JoinReply}
    (h : m.Leaves joiner j host reply m') : Central T root m' := by
  refine hm.keeps hm' ?_ ?_ ?_ h.introductions
  · rintro t ⟨r, hr, hacc⟩
    rw [h.residents] at hr
    split at hr
    · cases hr
    · exact ⟨r, hr, hacc⟩
  · intro r hr hs
    refine ⟨r, ?_, hs, fun _ hk => hk⟩
    rw [h.residents, if_neg (h.ne_of_member hr hs), hr]
  · intro t r host' hr hh
    rw [h.residents] at hr
    split at hr
    · cases hr
    · exact hm.host t r host' hr hh

theorem Central.hears {word : Word} (h : m.Hears word m') : Central T root m' := by
  refine hm.keeps hm' ?_ ?_ ?_ h.introductions
  · rintro t ⟨r', hr', hacc⟩
    obtain ⟨r, hr, hs⟩ := h.resident_before hr'
    exact ⟨r, hr, by rw [← hs, hacc]⟩
  · intro r hr hs
    rw [h.residents]
    split
    · rw [hr]
      exact ⟨_, rfl, hs, fun id hk => (Profile.knows_learn _ _ _ id).2 (Or.inr (Or.inr hk))⟩
    · exact ⟨r, hr, hs, fun _ hk => hk⟩
  · intro t r' host hr' hh
    obtain ⟨r, hr, hs⟩ := h.resident_before hr'
    exact hm.host t r host hr (by rw [← hs, hh])

theorem Central.accepts {joiner host : String} {j member : Resident} (h : m.Accepts joiner j host member m') :
    Central T root m' := by
  obtain rfl : host = root := hm.host joiner j host h.joinerAt (by rw [h.asking]; rfl)
  obtain ⟨hmem, hne⟩ := hm.host_standing h.toAnswers
  obtain ⟨r, hr, hs, hknows⟩ := hm.center
  obtain rfl := Option.some.inj (hr.symm.trans h.hostAt)
  have hjoiner : j.profile.peer.id = .ofTarget joiner := by
    rw [Peer.id, Profile.peer, hm.target _ _ h.joinerAt]
  have hhas : ∀ t, m'.Has t → t = joiner ∨ m.Has t := by
    rintro t ⟨r', hr', hacc⟩
    rw [h.residents] at hr'
    split at hr'
    · rename_i ht
      exact Or.inl ht
    · split at hr'
      · rename_i ht
        rw [ht]
        exact Or.inr ⟨r, hr, by rw [hs]; rfl⟩
      · exact Or.inr ⟨r', hr', hacc⟩
  have hnew : ∀ u, m.Has u → m'.Introduced joiner u := by
    intro u hu
    refine h.introduced.2 (Or.inr (Or.inl ⟨rfl, ?_⟩))
    by_cases huh : u = host
    · exact Or.inl huh
    · obtain ⟨n, hn⟩ := hknows u hu huh
      obtain ⟨r', hr', -⟩ := hu
      obtain ⟨p, ⟨hp, -⟩, hid, rfl⟩ := (hm.seat _ _ hr).store _ _ hn
      rw [(hm.ofTarget_eq_iff (hm.listed _ _ hr') hp).1 hid.symm]
      exact Or.inr (List.mem_map_of_mem (f := Node.target) (Store.mem_nodes.2 ⟨_, hn⟩))
  refine { toTight := hm', center := ?_, host := ?_, introduced := ?_ }
  · refine ⟨{ r with store := r.store.letIn j.profile.peer }, ?_, hs, fun t ht hth => ?_⟩
    · rw [h.residents, if_neg hne, if_pos rfl]
    · rw [Store.knows_letIn, hjoiner]
      rcases hhas t ht with rfl | ht
      · exact Or.inl rfl
      · exact Or.inr (hknows t ht hth)
  · intro t r' host' hr' hh
    rw [h.residents] at hr'
    split at hr'
    · cases hr'
      cases hh
      rfl
    · split at hr'
      · cases hr'
        exact hm.host _ r host' hr hh
      · exact hm.host t r' host' hr' hh
  · intro t u ht hu htu
    rcases hhas t ht with rfl | ht
    · rcases hhas u hu with rfl | hu
      · exact absurd rfl htu
      · exact hnew u hu
    · rcases hhas u hu with rfl | hu
      · exact (hnew t ht).symm
      · exact h.introduced.2 (Or.inl (hm.introduced t u ht hu htu))

end Step

theorem Central.step (hm : Central T root m) {move : Move} (h : m.step? move = some m')
    (hT : ∀ node ∈ move.fresh?, node.target ∈ T) (hhost : ∀ node host, move = .ask node host → host = root) :
    Central T root m' := by
  have hm' := hm.toTight.step h hT
  revert hm'
  refine step?_induction (P := fun _ m' => Tight T m' → Central T root m') h ?_ ?_ ?_ ?_ ?_ ?_
  · intro node host hask h hm'
    rw [hhost node host hask] at h
    exact hm.asks hm' h
  · exact fun h hm' => hm.refuses hm' h
  · exact fun h hm' => hm.accepts hm' h
  · exact fun h hm' => hm.settles hm' h
  · exact fun h hm' => hm.leaves hm' h
  · exact fun h hm' => hm.hears hm' h

theorem Central.start (hT : DigestsApart T) {node : Profile} (hnode : node.target ∈ T) :
    Central T node.target (start node) := by
  have hone : ∀ t, (Mesh.start node).Has t → t = node.target := by
    rintro t ⟨r, hr, -⟩
    by_contra hne
    rw [resident?_start, if_neg hne] at hr
    cases hr
  refine
    { toTight := ⟨Sound.start hT hnode, Exact.start node⟩
      center := ⟨_, by rw [resident?_start, if_pos rfl], rfl, fun t ht hne => absurd (hone t ht) hne⟩
      host := fun t r host hr hh => ?_
      introduced := fun t u ht hu hne => absurd ((hone t ht).trans (hone u hu).symm) hne }
  rw [resident?_start] at hr
  split at hr
  · cases hr
    cases hh
  · cases hr

/-- However joins through one and the same member overlap, in the end every member knows every other one. -/
theorem acquainted_of_single_host {root : Profile} {moves : List Move} (h : run moves (start root) = some m)
    (hapart : DigestsApart ((root :: joiners moves).map Profile.target))
    (hhost : ∀ node host, Move.ask node host ∈ moves → host = root.target) (hq : m.Quiet) (ht : m.IsMember t)
    (hu : m.IsMember u) (hne : t ≠ u) : m.Knows t u := by
  have hm : Central ((root :: joiners moves).map Profile.target) root.target m := by
    refine run_induction (fun move hmove m m' hm h => hm.step h (fun node hnode => ?_) ?_)
      (Central.start hapart List.mem_cons_self) h
    · exact List.mem_map_of_mem (List.mem_cons_of_mem _ (List.mem_filterMap.2 ⟨move, hmove, hnode⟩))
    · rintro node host rfl
      exact hhost node host hmove
  have hhas : ∀ t, m.IsMember t → m.Has t := fun t ⟨r, hr, hs⟩ => ⟨r, hr, by rw [hs]; rfl⟩
  have hi := hm.introduced t u (hhas t ht) (hhas u hu) hne
  obtain ⟨r, hr, -⟩ := hu
  exact hq.informed_iff.1 ((hm.exact t u (hm.listed u r hr) hne).2 hi)

end PeerMesh.Mesh
