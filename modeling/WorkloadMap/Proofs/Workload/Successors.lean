import WorkloadMap.Proofs.Workload.Listing

/-!
What becomes of a child that manages pods. An owner that it gives way to need not have been fetched,
and of one that was not nothing is built. Main statement: when a child is listed, or else one of the
owners in its place.
-/
namespace WorkloadMap.Resources

open Index

variable {r : Resources} {k : ControllerKind} {c : Controller} {name : String} {kind : Kind}

/-- Whether there is something to tell of what an owner reference names. -/
def Tells (r : Resources) (o : OwnerReference) : Prop :=
  ((Kind.ofName o.kind).isCustom || r.contains (Kind.ofName o.kind) o.name) = true

theorem exists_workload_iff (h : r.WellReferenced) (key : String)
    (hstands : r.StandsFor name kind) :
    (∃ w ∈ r.workloads key none, w.name = name) ↔
      (r.resolve none).find? name = some kind ∧ (kind.isCustom || r.contains kind name) = true := by
  have hlisted : (∃ w ∈ r.workloads key none, w.name = name ∧ w.kind = kind) ↔ _ :=
    exists_mem_buildAll
  rw [← hlisted]
  constructor
  · rintro ⟨w, hw, rfl⟩
    refine ⟨w, hw, rfl, ?_⟩
    have hentry := (exists_mem_buildAll.1 ⟨w, hw, rfl, rfl⟩).1
    have hstands' := standsFor_of_resolved h.toNamed
      ((find?_resolve_iff h.toNamed h.unambiguous).1 hentry)
    exact h.unambiguous w.name w.kind kind hstands' hstands
  · rintro ⟨w, hw, hname, _⟩
    exact ⟨w, hw, hname⟩

theorem exists_workload_of_owner_iff (h : r.WellReferenced) (key : String) (hk : k ∈ childKinds)
    (hc : c ∈ r.controllers k) (hmanages : r.ManagesPod (Object.anyName c) (.controller k))
    {o : OwnerReference} (ho : o ∈ c.metadata.controllers) :
    (∃ w ∈ r.workloads key none, w.name = o.name) ↔ r.Tells o := by
  have hmanager : o ∈ r.managers := mem_managers.2 (.inr ⟨k, hk, c, hc, ho⟩)
  have hclaimed : ClaimedByOwner r o.name (Kind.ofName o.kind) :=
    ⟨_, _, (managesPod_iff (by simp)).1 hmanages, o,
      (mem_ownersOf_anyName h.toNamed hc).2 ⟨hk, ho⟩, rfl, rfl⟩
  rw [exists_workload_iff h key (.inl ⟨o, hmanager, rfl, rfl⟩)]
  exact and_iff_right
    ((find?_resolve_iff h.toNamed h.unambiguous).2 (.inl (.inr hclaimed)))

theorem exists_workload_of_child_iff (h : r.WellReferenced) (key : String) (hk : k ∈ childKinds)
    (hc : c ∈ r.controllers k) (hmanages : r.ManagesPod (Object.anyName c) (.controller k)) :
    (∃ w ∈ r.workloads key none, w.name = Object.anyName c) ↔
      (∀ o ∈ c.metadata.controllers, isLeftBehind r (.controller k) o = true) ∨
        ClaimedByOwner r (Object.anyName c) (.controller k) := by
  have hcontains := h.contains_controller hc
  rw [exists_workload_iff h key (.inr hcontains), find?_resolve_iff h.toNamed h.unambiguous]
  constructor
  · rintro ⟨(⟨_, hstays⟩ | hclaimed) | horphan, _⟩
    · refine .inl fun o ho => ?_
      by_contra hleft
      exact hstays ((givesWay_anyName_iff h.toNamed hc).2 ⟨hk, o, ho, by simpa using hleft⟩)
    · exact .inr hclaimed
    · -- A child that stands alone has no owners, and so none that have not left it behind.
      have hnone := unmanaged_of_mem_orphans h.toNamed hk hc horphan
      exact .inl (by simp [hnone])
  · rintro (hleft | hclaimed)
    · have hstays := staysFromPods_of_isLeftBehind h.toNamed hc hmanages hleft
      exact ⟨.inl (.inl hstays), by simp [hcontains]⟩
    · exact ⟨.inl (.inr hclaimed), by simp [hcontains]⟩

/-- A child that manages a pod is listed, or an owner of it in its place, exactly if all of its
owners have left it behind, if it is itself the owner of a child with pods, or if there is something
to tell of one of its owners. -/
theorem child_or_owner_listed_iff (h : r.WellReferenced) (hk : k ∈ childKinds)
    (hc : c ∈ r.controllers k) (hmanages : r.ManagesPod (Object.anyName c) (.controller k))
    (key : String) :
    (∃ w ∈ r.workloads key none,
        w.name = Object.anyName c ∨ ∃ o ∈ c.metadata.controllers, w.name = o.name) ↔
      ((∀ o ∈ c.metadata.controllers, isLeftBehind r (.controller k) o = true) ∨
        ClaimedByOwner r (Object.anyName c) (.controller k)) ∨
      ∃ o ∈ c.metadata.controllers, r.Tells o := by
  rw [← exists_workload_of_child_iff h key hk hc hmanages]
  constructor
  · rintro ⟨w, hw, hchild | ⟨o, ho, howner⟩⟩
    · exact .inl ⟨w, hw, hchild⟩
    · exact .inr ⟨o, ho, (exists_workload_of_owner_iff h key hk hc hmanages ho).1 ⟨w, hw, howner⟩⟩
  · rintro (⟨w, hw, hchild⟩ | ⟨o, ho, htells⟩)
    · exact ⟨w, hw, .inl hchild⟩
    · obtain ⟨w, hw, howner⟩ := (exists_workload_of_owner_iff h key hk hc hmanages ho).2 htells
      exact ⟨w, hw, .inr ⟨o, ho, howner⟩⟩

theorem shop_web_or_owner_listed :
    shop.WellReferenced ∧ ControllerKind.replicaSet ∈ childKinds ∧
      ∃ c ∈ shop.controllers .replicaSet,
        shop.ManagesPod (Object.anyName c) (.controller .replicaSet) ∧
        ((∃ w ∈ shop.workloads "" none,
            w.name = Object.anyName c ∨ ∃ o ∈ c.metadata.controllers, w.name = o.name) ↔
          ((∀ o ∈ c.metadata.controllers, isLeftBehind shop (.controller .replicaSet) o = true) ∨
            ClaimedByOwner shop (Object.anyName c) (.controller .replicaSet)) ∨
          ∃ o ∈ c.metadata.controllers, shop.Tells o) := by
  have h : shop.WellOwned := by decide +kernel
  obtain ⟨c, hc, hname⟩ : ∃ c ∈ shop.controllers .replicaSet, Object.anyName c = "web-1" :=
    ⟨_, List.mem_singleton_self _, rfl⟩
  have hmanages : shop.ManagesPod (Object.anyName c) (.controller .replicaSet) := by
    rw [hname]
    exact ⟨_, List.mem_cons_self, ⟨"ReplicaSet", "web-1", true⟩, List.mem_singleton_self _, rfl,
      rfl⟩
  have hlisted := child_or_owner_listed_iff h.toWellReferenced (by decide) hc hmanages ""
  exact ⟨h.toWellReferenced, by decide, c, hc, hmanages, hlisted⟩

/-- A ReplicationController whose owner is of a kind that was not fetched. -/
def deserted : Resources where
  pods := [{ metadata :=
    { name := some "web-1-a", owners := [⟨"ReplicationController", "web-1", true⟩] } }]
  controllers
    | .replicationController => [{ metadata :=
        { name := some "web-1", owners := [⟨"DeploymentConfig", "web", true⟩] } }]
    | _ => []

theorem deserted_not_listed :
    deserted.WellOwned ∧ ControllerKind.replicationController ∈ childKinds ∧
      ∃ c ∈ deserted.controllers .replicationController,
        deserted.ManagesPod (Object.anyName c) (.controller .replicationController) ∧
        ¬∃ w ∈ deserted.workloads "" none,
          w.name = Object.anyName c ∨ ∃ o ∈ c.metadata.controllers, w.name = o.name := by
  have h : deserted.WellOwned := by decide +kernel
  have hmanages : deserted.ManagesPod "web-1" (.controller .replicationController) :=
    ⟨_, List.mem_singleton_self _, ⟨"ReplicationController", "web-1", true⟩,
      List.mem_singleton_self _, rfl, rfl⟩
  refine ⟨h, by decide, _, List.mem_singleton_self _, hmanages, ?_⟩
  have hnone : deserted.workloads "" none = [] := by decide +kernel
  simp [hnone]

end WorkloadMap.Resources
