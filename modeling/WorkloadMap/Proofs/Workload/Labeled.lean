import WorkloadMap.Proofs.NameMap
import WorkloadMap.Proofs.Selector.Label
import WorkloadMap.Proofs.Workload.Pods

/-!
Workloads that have one value of a label. Where pods carry the labels of what manages them, each
claim to the name of such a workload is made by pods of that value, which a selector of the value
does not leave out. Main statement: whatever else the pods were selected by, the workloads of the
value are those of the whole namespace.
-/
namespace WorkloadMap

def Controller.IsManagedBy (child : Controller) (k : ControllerKind) (name : String) : Prop :=
  ∃ o ∈ child.metadata.controllers, o.name = name ∧ Kind.ofName o.kind = .controller k

instance (child : Controller) (k : ControllerKind) (name : String) :
    Decidable (child.IsManagedBy k name) := by
  unfold Controller.IsManagedBy
  infer_instance

namespace Resources

/-- A pod carries the labels of the templates of its managers, and of theirs. -/
structure Stamped (r : Resources) : Prop where
  owner : ∀ pod ∈ r.pods, ∀ k, ∀ c ∈ r.controllers k,
    pod.IsManagedBy k (Object.anyName c) → pod.Carries c
  ownersOwner : ∀ pod ∈ r.pods, ∀ k, ∀ c ∈ r.controllers k,
    pod.IsManagedBy k (Object.anyName c) → ∀ k', ∀ c' ∈ r.controllers k',
      c.IsManagedBy k' (Object.anyName c') → pod.Carries c'

instance (r : Resources) : Decidable r.Stamped :=
  decidable_of_iff
    ((∀ pod ∈ r.pods, ∀ k, ∀ c ∈ r.controllers k,
      pod.IsManagedBy k (Object.anyName c) → pod.Carries c) ∧
      ∀ pod ∈ r.pods, ∀ k, ∀ c ∈ r.controllers k,
        pod.IsManagedBy k (Object.anyName c) → ∀ k', ∀ c' ∈ r.controllers k',
          c.IsManagedBy k' (Object.anyName c') → pod.Carries c')
    ⟨fun ⟨howner, hsecond⟩ => ⟨howner, hsecond⟩, fun ⟨howner, hsecond⟩ => ⟨howner, hsecond⟩⟩

/-- What manages anything is of a known kind of controller. -/
def KnownManagers (r : Resources) : Prop :=
  ∀ o ∈ r.managers, ∃ k, Kind.ofName o.kind = .controller k

instance (r : Resources) : Decidable r.KnownManagers := by
  unfold KnownManagers
  infer_instance

structure WellLabeled (r : Resources) : Prop extends WellNamed r, Stamped r where
  known : r.KnownManagers

/-- With only the pods that are selected. -/
def selectedBy (r : Resources) (s : Selector) : Resources :=
  { r with pods := r.pods.filter fun pod => s.selects pod.metadata.labels }

/-- The labels by which the object of a kind and name is told as a workload. -/
def labels? (r : Resources) : Kind → String → Option Labels
  | .controller k, name => (r.controller? k name).map (·.template)
  | .pod, name => (r.pod? name).map (·.metadata.labels)
  | .custom .., _ => none

variable {r : Resources} {s : Selector} {key name label value text : String} {kind : Kind}
  {labels : Labels} {selector : Option String} {w : Workload}

theorem managers_selectedBy_subset : (r.selectedBy s).managers ⊆ r.managers := by
  intro o ho
  rcases mem_managers.1 ho with ⟨pod, hpod, ho⟩ | hchild
  · exact mem_managers.2 (.inl ⟨pod, List.mem_of_mem_filter hpod, ho⟩)
  · exact mem_managers.2 (.inr hchild)

theorem objects_selectedBy_subset : (r.selectedBy s).objects ⊆ r.objects := by
  intro a ha
  rcases List.mem_append.1 ha with hpods | hcontroller
  · obtain ⟨pod, hpod, rfl⟩ := List.mem_map.1 hpods
    exact List.mem_append_left _ (List.mem_map.2 ⟨pod, List.mem_of_mem_filter hpod, rfl⟩)
  · exact List.mem_append_right _ hcontroller

theorem WellLabeled.selectedBy (h : r.WellLabeled) (s : Selector) :
    (r.selectedBy s).WellLabeled where
  pods := ⟨fun pod hpod => h.pods.isSome pod (List.mem_of_mem_filter hpod),
    h.pods.nodup.sublist (List.filter_sublist.map _)⟩
  controllers := h.controllers
  apart a ha b hb := h.apart a (objects_selectedBy_subset ha) b (objects_selectedBy_subset hb)
  truthful o ho a ha := h.truthful o (managers_selectedBy_subset ho) a (objects_selectedBy_subset ha)
  owner pod hpod := h.owner pod (List.mem_of_mem_filter hpod)
  ownersOwner pod hpod := h.ownersOwner pod (List.mem_of_mem_filter hpod)
  known o ho := h.known o (managers_selectedBy_subset ho)

theorem contains_of_labels? (h : r.labels? kind name = some labels) :
    r.contains kind name = true := by
  cases kind with
  | controller k =>
    obtain ⟨c, hc, _⟩ := Option.map_eq_some_iff.1 h
    simp [contains, hc]
  | pod =>
    obtain ⟨pod, hpod, _⟩ := Option.map_eq_some_iff.1 h
    simp [contains, hpod]
  | custom => cases h

theorem labels?_of_build? (hknown : kind.isCustom = false)
    (h : r.build? key name kind kind = some w) : r.labels? kind name = some w.labels := by
  cases kind with
  | controller k =>
    obtain ⟨c, hc, rfl⟩ := Option.map_eq_some_iff.1 h
    simp [labels?, hc]
  | pod =>
    obtain ⟨pod, hpod, rfl⟩ := Option.map_eq_some_iff.1 h
    simp [labels?, hpod]
  | custom n hn => cases hknown

theorem Named.labels?_controller_iff (h : r.Named) {k : ControllerKind} :
    r.labels? (.controller k) name = some labels ↔
      ∃ c ∈ r.controllers k, Object.anyName c = name ∧ c.template = labels := by
  simp only [labels?, Option.map_eq_some_iff, h.controller?_eq_some_iff, and_assoc]

theorem Named.labels?_pod_iff (h : r.Named) :
    r.labels? .pod name = some labels ↔
      ∃ pod ∈ r.pods, Object.anyName pod = name ∧ pod.metadata.labels = labels := by
  simp only [labels?, Option.map_eq_some_iff, h.pod?_eq_some_iff, and_assoc]

/-! What claims a name is labeled as the object of that name is. -/

theorem WellLabeled.find?_of_claims (h : r.WellLabeled) {pod : Pod} (hpod : pod ∈ r.pods)
    (hclaim : pod.Claims name kind) (hlabels : r.labels? kind name = some labels)
    (hvalue : labels.find? label = some value) :
    pod.metadata.labels.find? label = some value := by
  rcases hclaim with ⟨o, ho, rfl, rfl⟩ | ⟨_, rfl, rfl⟩
  · obtain ⟨k, hk⟩ := h.known o (mem_managers.2 (.inl ⟨pod, hpod, ho⟩))
    rw [hk] at hlabels
    obtain ⟨c, hc, hname, rfl⟩ := h.labels?_controller_iff.1 hlabels
    exact h.owner pod hpod k c hc ⟨o, ho, hname.symm, hk⟩ label value hvalue
  · obtain ⟨pod', hpod', hname, rfl⟩ := h.labels?_pod_iff.1 hlabels
    rwa [h.pods.eq_of_anyName_eq hpod hpod' hname.symm]

theorem WellLabeled.find?_of_claimedByOwner (h : r.WellLabeled) {pod : Pod} (hpod : pod ∈ r.pods)
    {child : String} {childKind : Kind} (hclaim : pod.Claims child childKind)
    {o : OwnerReference} (howner : o ∈ Index.ownersOf r child childKind)
    (hlabels : r.labels? (Kind.ofName o.kind) o.name = some labels)
    (hvalue : labels.find? label = some value) :
    pod.metadata.labels.find? label = some value := by
  obtain ⟨k, hk, c, hc, rfl, rfl, ho⟩ := (Index.mem_ownersOf_iff h.toNamed).1 howner
  obtain ⟨k', hk'⟩ := h.known o (mem_managers.2 (.inr ⟨k, hk, c, hc, ho⟩))
  rw [hk'] at hlabels
  obtain ⟨c', hc', hname', rfl⟩ := h.labels?_controller_iff.1 hlabels
  rcases hclaim with hclaim | ⟨_, _, hpodKind⟩
  · have hmanages : c.IsManagedBy k' (Object.anyName c') := ⟨o, ho, hname'.symm, hk'⟩
    exact h.ownersOwner pod hpod k c hc hclaim k' c' hc' hmanages label value hvalue
  · cases hpodKind

end Resources

/-! The passes over the index, with the selected pods and with all of them. -/

namespace Index

variable {r : Resources} {s : Selector} {name label value text : String} {kind : Kind}
  {labels : Labels}

theorem mem_pods_selectedBy (hs : s.SelectsValue label value) {pod : Pod} (hpod : pod ∈ r.pods)
    (h : pod.metadata.labels.find? label = some value) : pod ∈ (r.selectedBy s).pods :=
  List.mem_filter.2 ⟨hpod, hs _ h⟩

theorem staysFromPods_selectedBy (h : r.WellLabeled) (hs : s.SelectsValue label value)
    (hlabels : r.labels? kind name = some labels) (hvalue : labels.find? label = some value) :
    StaysFromPods (r.selectedBy s) name kind ↔ StaysFromPods r name kind := by
  refine and_congr ?_ Iff.rfl
  constructor
  · rintro ⟨pod, hpod, hclaim⟩
    exact ⟨pod, List.mem_of_mem_filter hpod, hclaim⟩
  · rintro ⟨pod, hpod, hclaim⟩
    have hpodValue := h.find?_of_claims hpod hclaim hlabels hvalue
    exact ⟨pod, mem_pods_selectedBy hs hpod hpodValue, hclaim⟩

theorem claimedByOwner_selectedBy (h : r.WellLabeled) (hs : s.SelectsValue label value)
    (hlabels : r.labels? kind name = some labels) (hvalue : labels.find? label = some value) :
    ClaimedByOwner (r.selectedBy s) name kind ↔ ClaimedByOwner r name kind := by
  constructor
  · rintro ⟨child, childKind, ⟨pod, hpod, hclaim⟩, howner⟩
    exact ⟨child, childKind, ⟨pod, List.mem_of_mem_filter hpod, hclaim⟩, howner⟩
  · rintro ⟨child, childKind, ⟨pod, hpod, hclaim⟩, o, ho, rfl, rfl⟩
    have hpodValue := h.find?_of_claimedByOwner hpod hclaim ho hlabels hvalue
    exact ⟨child, childKind, ⟨pod, mem_pods_selectedBy hs hpod hpodValue, hclaim⟩, o, ho, rfl, rfl⟩

theorem mem_orphans_selectedBy (h : r.WellLabeled) (hs : s.SelectsValue label value)
    (htext : Selector.parse text = .ok s)
    (hlabels : r.labels? kind name = some labels) (hvalue : labels.find? label = some value) :
    (name, kind) ∈ orphans (r.selectedBy s) (some text) ↔ (name, kind) ∈ orphans r none := by
  rw [mem_orphans, mem_orphans]
  refine exists_congr fun k => and_congr_right fun _ => and_congr_right fun hkind => ?_
  subst hkind
  obtain ⟨c, hc, hname, rfl⟩ := h.labels?_controller_iff.1 hlabels
  have hselected : ∀ c' ∈ r.controllers k, Object.anyName c' = name →
      templateSelected (some text) c' = true := by
    intro c' hc' hname'
    rw [(h.controllers k).eq_of_anyName_eq hc' hc (hname'.trans hname.symm)]
    simp only [templateSelected, Option.map_some, htext]
    exact hs _ hvalue
  constructor
  · rintro ⟨c', hc', hname', halone, _⟩
    exact ⟨c', hc', hname', halone, rfl⟩
  · rintro ⟨c', hc', hname', halone, _⟩
    exact ⟨c', hc', hname', halone, hselected c' hc' hname'⟩

end Index

namespace Resources

variable {r : Resources} {s : Selector} {key name label value text : String} {kind : Kind}
  {labels : Labels} {selector : Option String} {w : Workload}

theorem labels?_selectedBy (h : r.WellLabeled) (hs : s.SelectsValue label value)
    (hvalue : labels.find? label = some value) :
    (r.selectedBy s).labels? kind name = some labels ↔ r.labels? kind name = some labels := by
  cases kind with
  | controller k => exact Iff.rfl
  | pod =>
    rw [(h.selectedBy s).labels?_pod_iff, h.labels?_pod_iff]
    constructor
    · rintro ⟨pod, hpod, hname, hlabels⟩
      exact ⟨pod, List.mem_of_mem_filter hpod, hname, hlabels⟩
    · rintro ⟨pod, hpod, hname, rfl⟩
      exact ⟨pod, Index.mem_pods_selectedBy hs hpod hvalue, hname, rfl⟩
  | custom => exact Iff.rfl

theorem find?_resolve_selectedBy (h : r.WellLabeled) (hs : s.SelectsValue label value)
    (htext : Selector.parse text = .ok s)
    (hlabels : r.labels? kind name = some labels) (hvalue : labels.find? label = some value) :
    ((r.selectedBy s).resolve (some text)).find? name = some kind ↔
      (r.resolve none).find? name = some kind := by
  have hobject := contains_of_labels? hlabels
  have hobject' := contains_of_labels? ((labels?_selectedBy h hs hvalue).2 hlabels)
  have h' := h.selectedBy s
  rw [Index.find?_resolve_iff_at h'.toNamed (h'.unambiguousAt hobject'),
    Index.find?_resolve_iff_at h.toNamed (h.unambiguousAt hobject),
    Index.staysFromPods_selectedBy h hs hlabels hvalue,
    Index.claimedByOwner_selectedBy h hs hlabels hvalue,
    Index.mem_orphans_selectedBy h hs htext hlabels hvalue]

theorem build?_selectedBy (h : r.WellLabeled) (hs : s.SelectsValue label value)
    (hlabels : r.labels? kind name = some labels) (hvalue : labels.find? label = some value) :
    (r.selectedBy s).build? key name kind kind = r.build? key name kind kind := by
  cases kind with
  | controller k =>
    obtain ⟨c, hc, rfl⟩ := Option.map_eq_some_iff.1 hlabels
    have hpods : (r.selectedBy s).podsWhere key (fun pod =>
          (Selector.equalities c.template).selects pod.metadata.labels) =
        r.podsWhere key fun pod =>
          (Selector.equalities c.template).selects pod.metadata.labels := by
      unfold podsWhere selectedBy
      dsimp only
      rw [List.filter_filter]
      refine congrArg _ (List.filter_congr fun pod _ => ?_)
      rw [Bool.and_eq_left_iff_imp]
      exact fun hselects => hs _ (Selector.selects_equalities.1 hselects label value hvalue)
    have hc' : (r.selectedBy s).controller? k name = some c := hc
    simp only [build?, controllerWorkload?, hc, hc', Option.map_some, hpods]
  | pod =>
    have hlabels' := (labels?_selectedBy h hs hvalue).2 hlabels
    obtain ⟨pod, hpod, _⟩ := Option.map_eq_some_iff.1 hlabels
    obtain ⟨pod', hpod', _⟩ := Option.map_eq_some_iff.1 hlabels'
    have hsame : pod' = pod := by
      obtain ⟨hmem, hname⟩ := h.pod?_eq_some_iff.1 hpod
      obtain ⟨hmem', hname'⟩ := (h.selectedBy s).pod?_eq_some_iff.1 hpod'
      exact h.pods.eq_of_anyName_eq (List.mem_of_mem_filter hmem') hmem (hname'.trans hname.symm)
    simp only [build?, podWorkload?, hpod, hpod', hsame]
  | custom => cases hlabels

theorem WellLabeled.isCustom_eq_false (h : r.WellLabeled)
    (hentry : (r.resolve selector).find? name = some kind) : kind.isCustom = false := by
  rcases Index.standsFor_of_find?_resolve h.toNamed hentry with ⟨o, ho, _, rfl⟩ | hobject
  · obtain ⟨k, hk⟩ := h.known o ho
    rw [hk]
    rfl
  · cases kind with
    | controller => rfl
    | pod => rfl
    | custom => cases hobject

theorem mem_workloads_iff (h : r.WellLabeled) :
    w ∈ r.workloads key selector ↔ ∃ name kind, r.labels? kind name = some w.labels ∧
      (r.resolve selector).find? name = some kind ∧ r.build? key name kind kind = some w := by
  unfold workloads
  rw [mem_buildAll]
  constructor
  · rintro ⟨name, kind, hentry, hbuilt⟩
    exact ⟨name, kind, labels?_of_build? (h.isCustom_eq_false hentry) hbuilt, hentry, hbuilt⟩
  · rintro ⟨name, kind, _, hentry, hbuilt⟩
    exact ⟨name, kind, hentry, hbuilt⟩

/-- A selector that leaves out nothing of a value of a label changes nothing in the workloads of
that value. -/
theorem WellLabeled.workloads_selectedBy (h : r.WellLabeled)
    (hs : s.SelectsValue label value) (htext : Selector.parse text = .ok s) (key : String) :
    (((r.selectedBy s).workloads key (some text)).filter fun w =>
        w.labels.find? label == some value) =
      (r.workloads key none).filter fun w => w.labels.find? label == some value := by
  have hascending : ∀ (r : Resources) selector, ((r.workloads key selector).filter fun w =>
      w.labels.find? label == some value).Pairwise fun w w' => w.name < w'.name :=
    fun r selector => (List.pairwise_map.1 (ascending_buildAll (r.resolve selector))).filter _
  refine eq_of_ascending_of_mem_iff (hascending _ _) (hascending _ _) fun w => ?_
  rw [List.mem_filter, List.mem_filter]
  refine and_congr_left fun hw => ?_
  have hvalue : w.labels.find? label = some value := by simpa using hw
  rw [mem_workloads_iff (h.selectedBy s), mem_workloads_iff h]
  refine exists_congr fun name => exists_congr fun kind => ?_
  rw [labels?_selectedBy h hs hvalue]
  refine and_congr_right fun hlabels => ?_
  rw [find?_resolve_selectedBy h hs htext hlabels hvalue, build?_selectedBy h hs hlabels hvalue]

end Resources

end WorkloadMap
