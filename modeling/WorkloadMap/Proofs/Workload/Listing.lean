import WorkloadMap.Proofs.Index.Agreement
import WorkloadMap.Proofs.Index.Children
import WorkloadMap.Proofs.Text.Bytes
import WorkloadMap.Proofs.Workload.Build

/-!
What a namespace lists. Main statement: where names tell objects apart, the workloads are exactly
those that the objects and their references call for, each once and in the order of names.
-/
namespace WorkloadMap

namespace Resources

def ManagesPod (r : Resources) (name : String) (kind : Kind) : Prop :=
  ∃ pod ∈ r.pods, ∃ o ∈ pod.metadata.controllers, o.name = name ∧ Kind.ofName o.kind = kind

/-- A pod is managed under a name by a kind, or a fetched child is that manages a pod itself. -/
def ManagesPodOrChild (r : Resources) (name : String) (kind : Kind) : Prop :=
  r.ManagesPod name kind ∨
    ∃ k ∈ Index.childKinds, ∃ c ∈ r.controllers k,
      r.ManagesPod (Object.anyName c) (.controller k) ∧
        ∃ o ∈ c.metadata.controllers, o.name = name ∧ Kind.ofName o.kind = kind

/-- The names that a namespace should list, with their kinds. -/
inductive Lists (r : Resources) : String → Kind → Prop
  | pod {pod : Pod} (hpod : pod ∈ r.pods) (hfree : pod.metadata.isOwned = false) :
    Lists r (Object.anyName pod) .pod
  | root {k : ControllerKind} {c : Controller} (hc : c ∈ r.controllers k)
    (hk : k ∈ ControllerKind.roots) :
    Lists r (Object.anyName c) (.controller k)
  | unowned {k : ControllerKind} {c : Controller} (hc : c ∈ r.controllers k)
    (hk : k ∈ [.replicaSet, .replicationController]) (hfree : c.metadata.isOwned = false) :
    Lists r (Object.anyName c) (.controller k)
  | unmanaged {k : ControllerKind} {c : Controller} (hc : c ∈ r.controllers k)
    (hk : k ∈ [.replicaSet, .replicationController])
    (hmanages : r.ManagesPod (Object.anyName c) (.controller k))
    (htop : c.metadata.controllers = []) : Lists r (Object.anyName c) (.controller k)
  | job {c : Controller} (hc : c ∈ r.controllers .job)
    (hmanages : r.ManagesPod (Object.anyName c) (.controller .job))
    (hgone : ∀ o ∈ c.metadata.controllers, Kind.ofName o.kind = .controller .cronJob ∧
      r.contains (.controller .cronJob) o.name = false) :
    Lists r (Object.anyName c) (.controller .job)
  | cronJob {c : Controller} (hc : c ∈ r.controllers .cronJob)
    (hmanages : r.ManagesPodOrChild (Object.anyName c) (.controller .cronJob)) :
    Lists r (Object.anyName c) (.controller .cronJob)
  /-- What is of an unknown kind is listed without an object. -/
  | custom {name : String} {kind : Kind} (hkind : kind.isCustom = true)
    (hmanages : r.ManagesPodOrChild name kind) : Lists r name kind

end Resources

namespace Index

variable {r : Resources} {name : String} {kind : Kind}

theorem managesPod_iff (hkind : kind ≠ .pod) :
    r.ManagesPod name kind ↔ ∃ pod ∈ r.pods, pod.Claims name kind := by
  constructor
  · rintro ⟨pod, hpod, hclaim⟩
    exact ⟨pod, hpod, .inl hclaim⟩
  · rintro ⟨pod, hpod, hclaim | ⟨_, _, hpodKind⟩⟩
    · exact ⟨pod, hpod, hclaim⟩
    · exact absurd hpodKind hkind

theorem managesPodOrChild_iff (hnamed : r.Named) (hkind : kind ≠ .pod)
    (hchild : ∀ k ∈ childKinds, kind ≠ .controller k) :
    r.ManagesPodOrChild name kind ↔
      StaysFromPods r name kind ∨ ClaimedByOwner r name kind := by
  unfold Resources.ManagesPodOrChild StaysFromPods ClaimedByOwner
  rw [managesPod_iff hkind]
  have hnot : ¬GivesWay r name kind := not_givesWay hchild
  constructor
  · rintro (hclaims | ⟨k, hk, c, hc, hmanages, hclaim⟩)
    · exact .inl ⟨hclaims, hnot⟩
    · obtain ⟨o, ho, hclaim⟩ := hclaim
      have hclaims := (managesPod_iff (by simp)).1 hmanages
      exact .inr ⟨_, _, hclaims, o, (mem_ownersOf_anyName hnamed hc).2 ⟨hk, ho⟩, hclaim⟩
  · rintro (⟨hclaims, _⟩ | ⟨child, childKind, hclaims, o, howner, hclaim⟩)
    · exact .inl hclaims
    · obtain ⟨k, hk, c, hc, rfl, rfl, ho⟩ := (mem_ownersOf_iff hnamed).1 howner
      exact .inr ⟨k, hk, c, hc, (managesPod_iff (by simp)).2 hclaims, o, ho, hclaim⟩

/-- Nothing claims to be a pod but the pods that nothing owns. -/
theorem lists_of_claimed_pod (h : r.WellOwned)
    (hclaimed : StaysFromPods r name .pod ∨ ClaimedByOwner r name .pod) : r.Lists name .pod := by
  rcases hclaimed with ⟨⟨pod, hpod, hclaim⟩, _⟩ | ⟨_, _, _, o, howner, _, hkind⟩
  · rcases hclaim with ⟨o, ho, _, hkind⟩ | ⟨hfree, rfl, _⟩
    · exact absurd hkind (h.notPod o (Resources.mem_managers.2 (.inl ⟨pod, hpod, ho⟩)))
    · exact .pod hpod hfree
  · obtain ⟨k, hk, c, hc, _, _, ho⟩ := (mem_ownersOf_iff h.toNamed).1 howner
    exact absurd hkind (h.notPod o (Resources.mem_managers.2 (.inr ⟨k, hk, c, hc, ho⟩)))

theorem lists_of_claimed_child (h : r.WellOwned) {k : ControllerKind} {c : Controller}
    (hk : k ∈ childKinds) (hc : c ∈ r.controllers k)
    (hclaimed : StaysFromPods r (Object.anyName c) (.controller k) ∨
      ClaimedByOwner r (Object.anyName c) (.controller k)) :
    r.Lists (Object.anyName c) (.controller k) := by
  rcases hclaimed with ⟨hclaims, hstays⟩ | hclaimed
  · have hmanages := (managesPod_iff (by simp)).2 hclaims
    have hfound := h.controller?_eq_some_iff.2 ⟨hc, rfl⟩
    have htop := unmanaged_of_not_givesWay hk hfound hstays
    rcases mem_childKinds.1 hk with rfl | rfl | rfl
    · exact .unmanaged hc (by simp) hmanages (by simpa using htop)
    · exact .unmanaged hc (by simp) hmanages (by simpa using htop)
    · refine .job hc hmanages fun o ho => ?_
      rcases htop with hnone | ⟨_, hgone⟩
      · simp [hnone] at ho
      · exact hgone o ho
  · -- What manages a child is no child.
    have hmem := (mem_ownerClaims_iff h.toNamed h.unambiguous).2 hclaimed
    exact absurd hmem (child_notMem_ownerClaims h.oneLevel hk _ _)

theorem lists_of_claimed (h : r.WellOwned)
    (hclaimed : StaysFromPods r name kind ∨ ClaimedByOwner r name kind)
    (hobject : (kind.isCustom || r.contains kind name) = true) : r.Lists name kind := by
  cases kind with
  | pod => exact lists_of_claimed_pod h hclaimed
  | custom n hn =>
    exact .custom rfl ((managesPodOrChild_iff h.toNamed (by simp) (by simp)).2 hclaimed)
  | controller k =>
    obtain ⟨c, hc, rfl⟩ := h.exists_of_contains (by simpa [Kind.isCustom] using hobject)
    by_cases hk : k ∈ childKinds
    · exact lists_of_claimed_child h hk hc hclaimed
    · by_cases hcron : k = .cronJob
      · subst hcron
        exact .cronJob hc
          ((managesPodOrChild_iff h.toNamed (by simp) (by simp [childKinds])).2 hclaimed)
      · refine .root hc ?_
        cases k <;> simp_all [childKinds, ControllerKind.roots]

theorem lists_of_mem_orphans (horphan : (name, kind) ∈ orphans r none) : r.Lists name kind := by
  obtain ⟨k, hk, rfl, c, hc, rfl, halone, _⟩ := mem_orphans.1 horphan
  by_cases hchild : k = .replicaSet ∨ k = .replicationController
  · refine .unowned hc (by simpa using hchild) ?_
    rcases hchild with rfl | rfl
    · simpa [standsAlone] using halone
    · simpa [standsAlone] using halone
  · refine .root hc ?_
    cases k <;> simp_all [orphanKinds, ControllerKind.roots]

theorem mem_orphans_of_standsAlone {k : ControllerKind} {c : Controller} (hk : k ∈ orphanKinds)
    (hc : c ∈ r.controllers k) (halone : standsAlone k c = true) :
    (Object.anyName c, .controller k) ∈ orphans r none :=
  mem_orphans.2 ⟨k, hk, rfl, c, hc, rfl, halone, rfl⟩

theorem staysFromPods_of_isLeftBehind (hnamed : r.Named) {k : ControllerKind} {c : Controller}
    (hc : c ∈ r.controllers k) (hmanages : r.ManagesPod (Object.anyName c) (.controller k))
    (hleft : ∀ o ∈ c.metadata.controllers, isLeftBehind r (.controller k) o = true) :
    StaysFromPods r (Object.anyName c) (.controller k) := by
  refine ⟨(managesPod_iff (by simp)).1 hmanages, fun hgives => ?_⟩
  obtain ⟨_, o, ho, hstays⟩ := (givesWay_anyName_iff hnamed hc).1 hgives
  simp [hleft o ho] at hstays

theorem claimed_or_orphan_of_lists (h : r.WellOwned) (hlists : r.Lists name kind) :
    (StaysFromPods r name kind ∨ ClaimedByOwner r name kind) ∨
      (name, kind) ∈ orphans r none := by
  cases hlists with
  | @pod pod hpod hfree =>
    exact .inl (.inl ⟨⟨pod, hpod, .inr ⟨hfree, rfl, rfl⟩⟩, not_givesWay (by simp)⟩)
  | @root k c hc hk =>
    refine .inr (mem_orphans_of_standsAlone ?_ hc ?_)
    · cases k <;> simp_all [orphanKinds, ControllerKind.roots]
    · cases k <;> simp_all [standsAlone, ControllerKind.roots]
  | unowned hc hk hfree =>
    refine .inr (mem_orphans_of_standsAlone ?_ hc (by simp [standsAlone, hfree]))
    simp only [List.mem_cons, List.not_mem_nil, or_false] at hk
    rcases hk with rfl | rfl <;> simp [orphanKinds]
  | unmanaged hc hk hmanages htop =>
    exact .inl (.inl (staysFromPods_of_isLeftBehind h.toNamed hc hmanages (by simp [htop])))
  | job hc hmanages hgone =>
    refine .inl (.inl (staysFromPods_of_isLeftBehind h.toNamed hc hmanages fun o ho => ?_))
    exact isLeftBehind_eq_true.2 ⟨rfl, hgone o ho⟩
  | cronJob hc hmanages =>
    exact .inl ((managesPodOrChild_iff h.toNamed (by simp) (by simp [childKinds])).1 hmanages)
  | custom hkind hmanages =>
    refine .inl ((managesPodOrChild_iff h.toNamed ?_ ?_).1 hmanages)
    · rintro rfl
      simp [Kind.isCustom] at hkind
    · rintro k _ rfl
      simp [Kind.isCustom] at hkind

end Index

namespace Resources

variable {r : Resources} {name : String} {kind : Kind}

theorem Lists.hasObject (h : r.Named) (hlists : r.Lists name kind) :
    (kind.isCustom || r.contains kind name) = true := by
  cases hlists with
  | pod hpod => simp [h.contains_pod hpod]
  | root hc => simp [h.contains_controller hc]
  | unowned hc => simp [h.contains_controller hc]
  | unmanaged hc => simp [h.contains_controller hc]
  | job hc => simp [h.contains_controller hc]
  | cronJob hc => simp [h.contains_controller hc]
  | custom hkind => simp [hkind]

/-- The workloads of a namespace are those it should list, in strictly ascending byte order of names
and so each once. -/
theorem workloads_eq_lists (h : r.WellOwned) (key : String) :
    ((r.workloads key none).map fun w => Text.bytes w.name).Pairwise (· < ·) ∧
      ∀ name kind, (∃ w ∈ r.workloads key none, w.name = name ∧ w.kind = kind) ↔
        r.Lists name kind := by
  constructor
  · have hascending : ((r.workloads key none).map (·.name)).Pairwise (· < ·) :=
      ascending_buildAll _
    rw [List.pairwise_map] at hascending ⊢
    exact hascending.imp Text.bytes_lt_iff.2
  intro name kind
  unfold workloads
  rw [exists_mem_buildAll, Index.find?_resolve_iff h.toNamed h.unambiguous]
  constructor
  · rintro ⟨hclaimed | horphan, hobject⟩
    · exact Index.lists_of_claimed h hclaimed hobject
    · exact Index.lists_of_mem_orphans horphan
  · intro hlists
    exact ⟨Index.claimed_or_orphan_of_lists h hlists, hlists.hasObject h.toNamed⟩

theorem workloads_shop_eq_lists :
    shop.WellOwned ∧ ((shop.workloads "" none).map fun w => Text.bytes w.name).Pairwise (· < ·) ∧
      ∀ name kind, (∃ w ∈ shop.workloads "" none, w.name = name ∧ w.kind = kind) ↔
        shop.Lists name kind :=
  have h : shop.WellOwned := by decide +kernel
  ⟨h, workloads_eq_lists h ""⟩

end Resources

end WorkloadMap
