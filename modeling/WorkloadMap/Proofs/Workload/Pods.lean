import WorkloadMap.Proofs.Index.Agreement
import WorkloadMap.Proofs.Index.Children
import WorkloadMap.Proofs.Workload.Build

/-!
The pods of the workloads. Main statement: where everything that manages a pod was fetched, and
stamps labels that the pod carries, the pod is among those of some workload.
-/
namespace WorkloadMap

def Pod.Carries (pod : Pod) (c : Controller) : Prop :=
  ∀ label value, c.template.find? label = some value →
    pod.metadata.labels.find? label = some value

instance (pod : Pod) (c : Controller) : Decidable (pod.Carries c) :=
  decidable_of_iff _ Selector.selects_equalities

def Pod.IsManagedBy (pod : Pod) (k : ControllerKind) (name : String) : Prop :=
  ∃ o ∈ pod.metadata.controllers, o.name = name ∧ Kind.ofName o.kind = .controller k

instance (pod : Pod) (k : ControllerKind) (name : String) : Decidable (pod.IsManagedBy k name) := by
  unfold Pod.IsManagedBy
  infer_instance

namespace Resources

/-- Whatever manages the pod was fetched and stamps labels that the pod carries. -/
def AttendsPod (r : Resources) (pod : Pod) : Prop :=
  pod.metadata.isOwned = false ∨
    pod.metadata.controllers ≠ [] ∧ ∀ o ∈ pod.metadata.controllers,
      ∃ k, ∃ c ∈ r.controllers k, Object.anyName c = o.name ∧ pod.Carries c

instance (r : Resources) (pod : Pod) : Decidable (r.AttendsPod pod) := by
  unfold AttendsPod
  infer_instance

/-- An owner of a child was fetched, is none itself, and stamps labels that the pods of the child
carry. Only a Job may have an owner that is gone, a CronJob. -/
def AttendsChild (r : Resources) (k : ControllerKind) (child : Controller) (o : OwnerReference) :
    Prop :=
  (∃ k', k' ∉ Index.childKinds ∧ ∃ c ∈ r.controllers k', Object.anyName c = o.name ∧
    ∀ pod ∈ r.pods, pod.IsManagedBy k (Object.anyName child) → pod.Carries c) ∨
  k = .job ∧ Kind.ofName o.kind = .controller .cronJob ∧
    r.contains (.controller .cronJob) o.name = false

instance (r : Resources) (k : ControllerKind) (child : Controller) (o : OwnerReference) :
    Decidable (r.AttendsChild k child o) := by
  unfold AttendsChild
  infer_instance

/-- Each pod carries the labels of whatever manages it, directly or through a child. -/
structure Attended (r : Resources) : Prop extends WellNamed r where
  ofPod : ∀ pod ∈ r.pods, r.AttendsPod pod
  ofChild : ∀ k ∈ Index.childKinds, ∀ child ∈ r.controllers k, ∀ o ∈ child.metadata.controllers,
    r.AttendsChild k child o

instance (r : Resources) : Decidable r.Attended :=
  decidable_of_iff
    (r.WellNamed ∧ (∀ pod ∈ r.pods, r.AttendsPod pod) ∧
      ∀ k ∈ Index.childKinds, ∀ child ∈ r.controllers k, ∀ o ∈ child.metadata.controllers,
        r.AttendsChild k child o)
    ⟨fun ⟨hnamed, hpod, hchild⟩ => ⟨hnamed, hpod, hchild⟩,
      fun ⟨hnamed, hpod, hchild⟩ => ⟨hnamed, hpod, hchild⟩⟩

variable {r : Resources}

theorem Attended.found_or_gone (h : r.Attended) {o : OwnerReference} (ho : o ∈ r.managers) :
    (∃ k, ∃ c ∈ r.controllers k, Object.anyName c = o.name) ∨
      Kind.ofName o.kind = .controller .cronJob ∧
        r.contains (.controller .cronJob) o.name = false := by
  rcases mem_managers.1 ho with ⟨pod, hpod, hmem⟩ | ⟨k, hk, child, hchild, hmem⟩
  · rcases h.ofPod pod hpod with hfree | ⟨_, hfound⟩
    · simp [Meta.isOwned_of_mem_controllers hmem] at hfree
    · obtain ⟨k, c, hc, hname, _⟩ := hfound o hmem
      exact .inl ⟨k, c, hc, hname⟩
  · rcases h.ofChild k hk child hchild o hmem with ⟨k', _, c, hc, hname, _⟩ | ⟨_, hgone⟩
    · exact .inl ⟨k', c, hc, hname⟩
    · exact .inr hgone

theorem Attended.notPod (h : r.Attended) {o : OwnerReference} (ho : o ∈ r.managers) :
    Kind.ofName o.kind ≠ .pod := by
  rcases h.found_or_gone ho with ⟨k, c, hc, hname⟩ | ⟨hcron, _⟩
  · simp [h.ofName_kind ho hc hname]
  · simp [hcron]

/-- A name that some object bears is not that of a CronJob that is gone. -/
theorem Attended.ne_of_gone (h : r.Attended) {o o' : OwnerReference} (ho' : o' ∈ r.managers)
    (hname : o.name = o'.name) {k : ControllerKind} {c : Controller} (hc : c ∈ r.controllers k)
    (hc' : Object.anyName c = o.name) (hcron : Kind.ofName o'.kind = .controller .cronJob)
    (hgone : r.contains (.controller .cronJob) o'.name = false) : False := by
  have hkind := h.ofName_kind ho' hc (hc'.trans hname)
  cases Kind.controller.inj (hcron.symm.trans hkind)
  have hcontains := h.contains_controller hc
  rw [hc', hname, hgone] at hcontains
  simp at hcontains

theorem Attended.consistent (h : r.Attended) {o o' : OwnerReference} (ho : o ∈ r.managers)
    (ho' : o' ∈ r.managers) (hname : o.name = o'.name) : o.kind = o'.kind := by
  have hkinds : Kind.ofName o.kind = Kind.ofName o'.kind := by
    rcases h.found_or_gone ho with ⟨k, c, hc, hfound⟩ | ⟨hcron, hgone⟩
    · rw [h.ofName_kind ho hc hfound, h.ofName_kind ho' hc (hfound.trans hname)]
    · rcases h.found_or_gone ho' with ⟨k, c, hc, hfound⟩ | ⟨hcron', _⟩
      · exact (h.ne_of_gone ho hname.symm hc hfound hcron hgone).elim
      · rw [hcron, hcron']
  rw [← Kind.name_ofName o.kind, ← Kind.name_ofName o'.kind, hkinds]

theorem Attended.oneLevel (h : r.Attended) : r.OneLevel := by
  intro k hk child hchild o ho k' hk' hkind
  have hmem : o ∈ r.managers := mem_managers.2 (.inr ⟨k, hk, child, hchild, ho⟩)
  rcases h.ofChild k hk child hchild o ho with ⟨parent, hparent, c, hc, hname, _⟩ | ⟨_, hcron, _⟩
  · rw [h.ofName_kind hmem hc hname] at hkind
    exact hparent (Kind.controller.inj hkind ▸ hk')
  · rw [hcron] at hkind
    cases Kind.controller.inj hkind
    simp [Index.childKinds] at hk'

theorem Attended.wellOwned (h : r.Attended) : r.WellOwned where
  toWellNamed := h.toWellNamed
  consistent _ ho _ ho' hname := h.consistent ho ho' hname
  notPod _ ho := h.notPod ho
  oneLevel := h.oneLevel

theorem exists_workload_of_carries {k : ControllerKind} {c : Controller}
    (hfound : r.controller? k (Object.anyName c) = some c)
    (hentry : (r.resolve none).find? (Object.anyName c) = some (.controller k)) {pod : Pod}
    (hpod : pod ∈ r.pods) (hcarries : pod.Carries c) (key : String) :
    ∃ w ∈ r.workloads key none, PodSummary.ofPod key pod ∈ w.pods := by
  have hobject : (r.build? key (Object.anyName c) (.controller k) (.controller k)).isSome := by
    rw [isSome_build?]
    simp [contains, hfound]
  obtain ⟨w, hbuilt⟩ := Option.isSome_iff_exists.1 hobject
  refine ⟨w, mem_buildAll.2 ⟨_, _, hentry, hbuilt⟩, ?_⟩
  obtain ⟨c', hc', _, _, hpods⟩ := controllerWorkload?_eq_some hbuilt
  cases Option.some.inj (hfound.symm.trans hc')
  rw [hpods]
  refine List.mem_map.2 ⟨pod, List.mem_filter.2 ⟨hpod, ?_⟩, rfl⟩
  exact Selector.selects_equalities.2 hcarries

/-- What a child gives way to claims its name and has the pods of the child. -/
theorem Attended.exists_owner_of_givesWay (h : r.Attended) {k : ControllerKind} {c : Controller}
    (hc : c ∈ r.controllers k) {pod : Pod} (hpod : pod ∈ r.pods)
    (hmanaged : pod.IsManagedBy k (Object.anyName c))
    (hgives : Index.GivesWay r (Object.anyName c) (.controller k)) :
    ∃ k', ∃ c' ∈ r.controllers k', pod.Carries c' ∧
      Index.ClaimedByOwner r (Object.anyName c') (.controller k') := by
  obtain ⟨hchild, o, ho, hstays⟩ := (Index.givesWay_anyName_iff h.toNamed hc).1 hgives
  have howner := (Index.mem_ownersOf_anyName h.toNamed hc).2 ⟨hchild, ho⟩
  have hmem : o ∈ r.managers := mem_managers.2 (.inr ⟨k, hchild, c, hc, ho⟩)
  rcases h.ofChild k hchild c hc o ho with ⟨parent, _, c'', hc'', hname, hpods⟩ | ⟨hjob, hgone⟩
  · refine ⟨parent, c'', hc'', hpods pod hpod hmanaged, _, _, ⟨pod, hpod, .inl hmanaged⟩, o,
      howner, hname.symm, h.ofName_kind hmem hc'' hname⟩
  · have hleft := Index.isLeftBehind_eq_true.2 ⟨congrArg Kind.controller hjob, hgone⟩
    rw [hleft] at hstays
    simp at hstays

/-- A pod is with what manages it, or with what that gave way to. -/
theorem Attended.exists_workload_of_owned (h : r.Attended) {pod : Pod} (hpod : pod ∈ r.pods)
    (howned : pod.metadata.isOwned = true) (key : String) :
    ∃ w ∈ r.workloads key none, PodSummary.ofPod key pod ∈ w.pods := by
  rcases h.ofPod pod hpod with hfree | ⟨hsome, hfound⟩
  · simp [howned] at hfree
  obtain ⟨o, ho⟩ := List.exists_mem_of_ne_nil _ hsome
  obtain ⟨k, c, hc, hname, hcarries⟩ := hfound o ho
  have hmem : o ∈ r.managers := mem_managers.2 (.inl ⟨pod, hpod, ho⟩)
  have hmanaged : pod.IsManagedBy k (Object.anyName c) :=
    ⟨o, ho, hname.symm, h.ofName_kind hmem hc hname⟩
  obtain ⟨k', c', hc', hcarries', hclaimed⟩ : ∃ k', ∃ c' ∈ r.controllers k', pod.Carries c' ∧
      (Index.StaysFromPods r (Object.anyName c') (.controller k') ∨
        Index.ClaimedByOwner r (Object.anyName c') (.controller k')) := by
    -- A child is not in the index once it has given way, but then its owner is.
    by_cases hgives : Index.GivesWay r (Object.anyName c) (.controller k)
    · obtain ⟨k', c', hc', hcarries', hclaimed⟩ :=
        h.exists_owner_of_givesWay hc hpod hmanaged hgives
      exact ⟨k', c', hc', hcarries', .inr hclaimed⟩
    · exact ⟨k, c, hc, hcarries, .inl ⟨⟨pod, hpod, .inl hmanaged⟩, hgives⟩⟩
  have hentry : (r.resolve none).find? (Object.anyName c') = some (.controller k') :=
    (Index.find?_resolve_iff h.toNamed h.wellOwned.unambiguous).2 (.inl hclaimed)
  exact exists_workload_of_carries (h.controller?_eq_some_iff.2 ⟨hc', rfl⟩) hentry hpod hcarries'
    key

theorem WellOwned.exists_workload_of_free (h : r.WellOwned) {pod : Pod} (hpod : pod ∈ r.pods)
    (hfree : pod.metadata.isOwned = false) (key : String) :
    ∃ w ∈ r.workloads key none, w.name = Object.anyName pod ∧ w.kind = .pod ∧
      w.pods = [PodSummary.ofPod key pod] := by
  have hentry : (r.resolve none).find? (Object.anyName pod) = some .pod := by
    refine (Index.find?_resolve_iff h.toNamed h.unambiguous).2 (.inl (.inl ?_))
    exact ⟨⟨pod, hpod, .inr ⟨hfree, rfl, rfl⟩⟩, Index.not_givesWay (by simp)⟩
  have hfound : r.pod? (Object.anyName pod) = some pod := h.pod?_eq_some_iff.2 ⟨hpod, rfl⟩
  have hobject : (r.build? key (Object.anyName pod) .pod .pod).isSome := by
    rw [isSome_build?]
    simp [contains, hfound]
  obtain ⟨w, hbuilt⟩ := Option.isSome_iff_exists.1 hobject
  obtain ⟨pod', hpod', hname, hkind, hpods⟩ := podWorkload?_eq_some hbuilt
  cases Option.some.inj (hfound.symm.trans hpod')
  exact ⟨w, mem_buildAll.2 ⟨_, _, hentry, hbuilt⟩, hname, hkind, hpods⟩

/-- No pod is lost, and a pod that nothing owns is the only one of a workload of its own. -/
theorem Attended.every_pod_listed (h : r.Attended) (key : String) :
    ∀ pod ∈ r.pods,
      (∃ w ∈ r.workloads key none, ∃ listed ∈ w.pods,
        listed = PodSummary.ofPod key pod ∧ listed.name = Object.anyName pod) ∧
      (pod.metadata.isOwned = false → ∃ w ∈ r.workloads key none, w.name = Object.anyName pod ∧
        w.kind = .pod ∧ ∃ listed, w.pods = [listed] ∧
          listed = PodSummary.ofPod key pod ∧ listed.name = Object.anyName pod) := by
  intro pod hpod
  have hlisted : ∃ w ∈ r.workloads key none, PodSummary.ofPod key pod ∈ w.pods := by
    cases howned : pod.metadata.isOwned with
    | true => exact h.exists_workload_of_owned hpod howned key
    | false =>
      obtain ⟨w, hw, _, _, hpods⟩ := h.wellOwned.exists_workload_of_free hpod howned key
      exact ⟨w, hw, by simp [hpods]⟩
  constructor
  · obtain ⟨w, hw, hmem⟩ := hlisted
    exact ⟨w, hw, _, hmem, rfl, PodSummary.ofPod_name key pod⟩
  · intro hfree
    obtain ⟨w, hw, hname, hkind, hpods⟩ := h.wellOwned.exists_workload_of_free hpod hfree key
    exact ⟨w, hw, hname, hkind, _, hpods, rfl, PodSummary.ofPod_name key pod⟩

theorem shop_every_pod_listed :
    shop.Attended ∧ ∀ pod ∈ shop.pods,
      (∃ w ∈ shop.workloads "" none, ∃ listed ∈ w.pods,
        listed = PodSummary.ofPod "" pod ∧ listed.name = Object.anyName pod) ∧
      (pod.metadata.isOwned = false → ∃ w ∈ shop.workloads "" none, w.name = Object.anyName pod ∧
        w.kind = .pod ∧ ∃ listed, w.pods = [listed] ∧
          listed = PodSummary.ofPod "" pod ∧ listed.name = Object.anyName pod) :=
  have h : shop.Attended := by decide +kernel
  ⟨h, h.every_pod_listed ""⟩

end Resources

end WorkloadMap
