import WorkloadMap.Proofs.Resources.Named
import WorkloadMap.Proofs.Workload.Build

/-!
The pods of custom kinds. Nothing is fetched of such a controller, so that its pods are told from
their references alone: those to the controller, and those to ReplicaSets named after it. Main
statements: which pods a custom kind keeps of those that its children manage, and when no two of
them have a pod in common.
-/
namespace WorkloadMap

def Meta.RefersTo (m : Meta) (kind name : String) : Prop :=
  ∃ o ∈ m.controllers, o.kind = kind ∧ o.name = name

instance (m : Meta) (kind name : String) : Decidable (m.RefersTo kind name) := by
  unfold Meta.RefersTo
  infer_instance

/-- Whether there is such a ReplicaSet, and what manages it, is not asked. -/
def Pod.RefersToReplicaSetOf (pod : Pod) (name : String) : Prop :=
  ∃ o ∈ pod.metadata.controllers,
    o.kind = ControllerKind.name .replicaSet ∧ beginsWith name o.name = true

instance (pod : Pod) (name : String) : Decidable (pod.RefersToReplicaSetOf name) := by
  unfold Pod.RefersToReplicaSetOf
  infer_instance

theorem beginsWith_iff {start name : String} :
    beginsWith start name = true ↔ start.toList <+: name.toList :=
  List.isPrefixOf_iff_prefix

/-- Of two names after which a third is named one is named after the other. -/
theorem beginsWith_or_of_common {a b name : String} (ha : beginsWith a name = true)
    (hb : beginsWith b name = true) : beginsWith a b = true ∨ beginsWith b a = true := by
  rw [beginsWith_iff] at ha hb
  rw [beginsWith_iff, beginsWith_iff]
  exact List.prefix_or_prefix_of_prefix ha hb

namespace Resources

variable {r : Resources} {key name : String} {kind : Kind} {w w' : Workload} {pod : Pod}
  {selector : Option String}

/-- Pods that are told apart by their names are told apart in a workload. -/
theorem mem_podsWhere_iff (hnamed : Object.Named r.pods) (hpod : pod ∈ r.pods) {p : Pod → Bool} :
    PodSummary.ofPod key pod ∈ r.podsWhere key p ↔ p pod = true := by
  unfold podsWhere
  rw [List.mem_map]
  constructor
  · rintro ⟨other, hother, hsame⟩
    obtain ⟨hmem, hp⟩ := List.mem_filter.1 hother
    have hname : Object.anyName other = Object.anyName pod := congrArg PodSummary.name hsame
    exact hnamed.eq_of_anyName_eq hmem hpod hname ▸ hp
  · intro hp
    exact ⟨pod, List.mem_filter.2 ⟨hpod, hp⟩, rfl⟩

theorem customWorkload_pods :
    (r.customWorkload key name kind).pods = r.podsWhere key (isManagedBy name kind) := by
  unfold customWorkload
  split <;> rfl

theorem isManagedBy_iff (hcustom : kind.isCustom = true) : isManagedBy name kind pod = true ↔
    pod.metadata.RefersTo kind.name name ∨ pod.RefersToReplicaSetOf name := by
  have hchild : childKindName kind = ControllerKind.name .replicaSet := by
    cases kind with
    | custom n unknown => rfl
    | controller | pod => cases hcustom
  unfold isManagedBy Meta.RefersTo Pod.RefersToReplicaSetOf
  simp only [List.any_eq_true, Bool.or_eq_true, Bool.and_eq_true, beq_iff_eq, hchild]
  constructor
  · rintro ⟨o, ho, hreplicaSet | hself⟩
    · exact .inr ⟨o, ho, hreplicaSet⟩
    · exact .inl ⟨o, ho, hself⟩
  · rintro (⟨o, ho, hself⟩ | ⟨o, ho, hreplicaSet⟩)
    · exact ⟨o, ho, .inr hself⟩
    · exact ⟨o, ho, .inl hreplicaSet⟩

theorem mem_pods_iff_of_isCustom (hnamed : r.Named) (hw : w ∈ r.workloads key selector)
    (hcustom : w.kind.isCustom = true) (hpod : pod ∈ r.pods) :
    PodSummary.ofPod key pod ∈ w.pods ↔
      pod.metadata.RefersTo w.kind.name w.name ∨ pod.RefersToReplicaSetOf w.name := by
  obtain ⟨name, kind, _, hbuilt⟩ := mem_buildAll.1 hw
  obtain ⟨rfl, rfl⟩ := name_kind_of_build? hbuilt
  have hpods : w.pods = r.podsWhere key (isManagedBy w.name w.kind) := by
    cases hkind : w.kind with
    | custom n unknown =>
      rw [hkind] at hbuilt
      rw [← Option.some.inj hbuilt, customWorkload_pods, customWorkload_name]
    | controller | pod => simp [hkind, Kind.isCustom] at hcustom
  rw [hpods, mem_podsWhere_iff hnamed.pods hpod, isManagedBy_iff hcustom]

theorem eq_of_mem_workloads (hw : w ∈ r.workloads key selector)
    (hw' : w' ∈ r.workloads key selector) (hname : w.name = w'.name) : w = w' := by
  obtain ⟨name, kind, hentry, hbuilt⟩ := mem_buildAll.1 hw
  obtain ⟨name', kind', hentry', hbuilt'⟩ := mem_buildAll.1 hw'
  obtain ⟨rfl, -⟩ := name_kind_of_build? hbuilt
  obtain ⟨rfl, -⟩ := name_kind_of_build? hbuilt'
  rw [hname, hentry'] at hentry
  cases hentry
  rw [hname, hbuilt'] at hbuilt
  exact (Option.some.inj hbuilt).symm

theorem exists_workload_of_isCustom (key : String)
    (hentry : (r.resolve selector).find? name = some kind) (hcustom : kind.isCustom = true) :
    ∃ w ∈ r.workloads key selector, w.name = name ∧ w.kind = kind :=
  exists_mem_buildAll.2 ⟨hentry, by rw [hcustom]; rfl⟩

/-! Pods of children. -/

/-- A pod of a fetched child that is named after the controller that manages it. -/
def IsBehind (r : Resources) (child : ControllerKind) (kind name : String) (pod : Pod) : Prop :=
  ∃ c ∈ r.controllers child, beginsWith name (Object.anyName c) = true ∧
    c.metadata.RefersTo kind name ∧ pod.metadata.RefersTo child.name (Object.anyName c)

theorem IsBehind.refersToReplicaSetOf {kind : String} (h : r.IsBehind .replicaSet kind name pod) :
    pod.RefersToReplicaSetOf name := by
  obtain ⟨c, _, hafter, _, o, ho, hkind, hname⟩ := h
  exact ⟨o, ho, hkind, by rwa [hname]⟩

/-- A workload keeps the pods that its controller manages, directly or through children. -/
def KeepsChildren (r : Resources) (key kind : String) (w : Workload) : Prop :=
  ∀ pod ∈ r.pods, (pod.metadata.RefersTo kind w.name ∨
    ∃ child ∈ Index.childKinds, r.IsBehind child kind w.name pod) →
      PodSummary.ofPod key pod ∈ w.pods

/-- A custom kind has the pods that refer to its controller, or to a ReplicaSet named after that. So
it keeps the pods of its children exactly if those of ReplicationControllers and Jobs refer to one
of these as well. -/
theorem custom_keepsChildren_iff (hnamed : r.Named) {kind : String}
    {unknown : kind ∉ knownKindNames}
    (hentry : (r.resolve none).find? name = some (.custom kind unknown)) (key : String) :
    ∃ w ∈ r.workloads key none, w.name = name ∧ w.kind = .custom kind unknown ∧
      (∀ w' ∈ r.workloads key none, w'.name = name → w' = w) ∧
      (∀ pod ∈ r.pods, PodSummary.ofPod key pod ∈ w.pods ↔
        pod.metadata.RefersTo kind name ∨ pod.RefersToReplicaSetOf name) ∧
      (r.KeepsChildren key kind w ↔
        ∀ pod ∈ r.pods, ∀ child ∈ [.replicationController, .job], r.IsBehind child kind name pod →
          pod.metadata.RefersTo kind name ∨ pod.RefersToReplicaSetOf name) := by
  obtain ⟨w, hw, rfl, hkind⟩ := exists_workload_of_isCustom key hentry rfl
  have hpods : ∀ pod ∈ r.pods, PodSummary.ofPod key pod ∈ w.pods ↔
      pod.metadata.RefersTo kind w.name ∨ pod.RefersToReplicaSetOf w.name := by
    intro pod hpod
    have hlisted := mem_pods_iff_of_isCustom hnamed hw (by rw [hkind]; rfl) hpod
    rwa [hkind] at hlisted
  refine ⟨w, hw, rfl, hkind, fun w' hw' hname => eq_of_mem_workloads hw' hw hname, hpods, ?_⟩
  constructor
  · intro hkeeps pod hpod child hchild hbehind
    have hmember : child ∈ Index.childKinds := List.mem_cons_of_mem _ hchild
    exact (hpods pod hpod).1 (hkeeps pod hpod (.inr ⟨child, hmember, hbehind⟩))
  · rintro hothers pod hpod (hself | ⟨child, hchild, hbehind⟩)
    · exact (hpods pod hpod).2 (.inl hself)
    · rcases List.mem_cons.1 hchild with rfl | hother
      · exact (hpods pod hpod).2 (.inr hbehind.refersToReplicaSetOf)
      · exact (hpods pod hpod).2 (hothers pod hpod child hother hbehind)

/-- A controller of an unknown kind with pods behind a ReplicaSet, and one with a pod of its own. -/
def canaries : Resources where
  pods := [
    { metadata :=
        { name := some "canary-1-a", owners := [⟨"ReplicaSet", "canary-1", true⟩] } },
    { metadata := { name := some "flow-0", owners := [⟨"Workflow", "flow", true⟩] } }]
  controllers
    | .replicaSet =>
      [{ metadata := { name := some "canary-1", owners := [⟨"Rollout", "canary", true⟩] } }]
    | _ => []

theorem canaries_keepsChildren :
    canaries.Named ∧
      (canaries.resolve none).find? "canary" = some (.custom "Rollout" (by decide +kernel)) ∧
      ∃ w ∈ canaries.workloads "" none, w.name = "canary" ∧
        w.kind = .custom "Rollout" (by decide +kernel) ∧
        (∀ w' ∈ canaries.workloads "" none, w'.name = "canary" → w' = w) ∧
        (∀ pod ∈ canaries.pods, PodSummary.ofPod "" pod ∈ w.pods ↔
          pod.metadata.RefersTo "Rollout" "canary" ∨ pod.RefersToReplicaSetOf "canary") ∧
        (canaries.KeepsChildren "" "Rollout" w ↔
          ∀ pod ∈ canaries.pods, ∀ child ∈ [.replicationController, .job],
            canaries.IsBehind child "Rollout" "canary" pod →
              pod.metadata.RefersTo "Rollout" "canary" ∨ pod.RefersToReplicaSetOf "canary") := by
  have hnamed : canaries.Named := by decide +kernel
  have hentry : (canaries.resolve none).find? "canary" =
      some (.custom "Rollout" (by decide +kernel)) := by decide +kernel
  exact ⟨hnamed, hentry, custom_keepsChildren_iff hnamed hentry ""⟩

/-- A controller of an unknown kind that manages its pod through a Job. -/
def simulation : Resources where
  pods := [{ metadata := { name := some "sim-1-a", owners := [⟨"Job", "sim-1", true⟩] } }]
  controllers
    | .job => [{ metadata := { name := some "sim-1", owners := [⟨"JobSet", "sim", true⟩] } }]
    | _ => []

theorem simulation_loses_pod :
    simulation.Named ∧
      (simulation.resolve none).find? "sim" = some (.custom "JobSet" (by decide +kernel)) ∧
      (∃ w ∈ simulation.workloads "" none, w.name = "sim") ∧
      ∀ w ∈ simulation.workloads "" none, ¬simulation.KeepsChildren "" "JobSet" w := by
  refine ⟨by decide +kernel, by decide +kernel, by decide +kernel, fun w hw hkeeps => ?_⟩
  have hnone : ∀ w ∈ simulation.workloads "" none, w.name = "sim" ∧ w.pods = [] := by
    decide +kernel
  obtain ⟨hname, hempty⟩ := hnone w hw
  have hbehind : simulation.IsBehind .job "JobSet" w.name simulation.pods[0] := by
    rw [hname]
    exact ⟨_, List.mem_singleton_self _, by decide +kernel,
      ⟨_, List.mem_singleton_self _, rfl, rfl⟩, ⟨_, List.mem_singleton_self _, rfl, rfl⟩⟩
  have hlost := hkeeps _ (List.mem_singleton_self _) (.inr ⟨.job, by decide, hbehind⟩)
  rw [hempty] at hlost
  cases hlost

/-! Pods of several controllers. -/

def IsCustomName (r : Resources) (name : String) : Prop :=
  ∃ kind, (r.resolve none).find? name = some kind ∧ kind.isCustom = true

/-- No pod is listed under two workloads of custom kinds. -/
def CustomsApart (r : Resources) (key : String) : Prop :=
  ∀ pod ∈ r.pods, ∀ w ∈ r.workloads key none, ∀ w' ∈ r.workloads key none,
    w.kind.isCustom = true → w'.kind.isCustom = true →
      PodSummary.ofPod key pod ∈ w.pods → PodSummary.ofPod key pod ∈ w'.pods → w = w'

theorem isCustomName_of_mem_workloads (hw : w ∈ r.workloads key none)
    (hcustom : w.kind.isCustom = true) : r.IsCustomName w.name :=
  ⟨w.kind, (exists_mem_buildAll.1 ⟨w, hw, rfl, rfl⟩).1, hcustom⟩

theorem IsCustomName.exists_workload (h : r.IsCustomName name) (key : String) :
    ∃ w ∈ r.workloads key none, w.name = name ∧ w.kind.isCustom = true := by
  obtain ⟨kind, hentry, hcustom⟩ := h
  obtain ⟨w, hw, hname, rfl⟩ := exists_workload_of_isCustom key hentry hcustom
  exact ⟨w, hw, hname, hcustom⟩

theorem name_ne_replicaSet (hcustom : kind.isCustom = true) :
    kind.name ≠ ControllerKind.name .replicaSet := by
  cases kind with
  | custom n unknown =>
    rintro rfl
    exact unknown (ControllerKind.name_mem .replicaSet)
  | controller | pod => cases hcustom

/-- A pod with one controlling reference is shared only through that, and it is to a ReplicaSet
named after both controllers. -/
theorem exists_replicaSet_of_shared (hnamed : r.Named) (hpod : pod ∈ r.pods)
    (hone : pod.metadata.controllers.length ≤ 1) (hw : w ∈ r.workloads key none)
    (hw' : w' ∈ r.workloads key none) (hcustom : w.kind.isCustom = true)
    (hcustom' : w'.kind.isCustom = true) (hlisted : PodSummary.ofPod key pod ∈ w.pods)
    (hlisted' : PodSummary.ofPod key pod ∈ w'.pods) (hne : w.name ≠ w'.name) :
    ∃ o ∈ pod.metadata.controllers, o.kind = ControllerKind.name .replicaSet ∧
      beginsWith w.name o.name = true ∧ beginsWith w'.name o.name = true := by
  have hsame : ∀ o ∈ pod.metadata.controllers, ∀ o' ∈ pod.metadata.controllers, o = o' := by
    rcases Nat.le_one_iff_eq_zero_or_eq_one.1 hone with hnone | hsingle
    · simp [List.length_eq_zero_iff.1 hnone]
    · obtain ⟨only, honly⟩ := List.length_eq_one_iff.1 hsingle
      simp [honly]
  rcases (mem_pods_iff_of_isCustom hnamed hw hcustom hpod).1 hlisted with
    ⟨o, ho, hkind, hname⟩ | ⟨o, ho, hkind, hafter⟩
  · rcases (mem_pods_iff_of_isCustom hnamed hw' hcustom' hpod).1 hlisted' with
      ⟨o', ho', hkind', hname'⟩ | ⟨o', ho', hkind', hafter'⟩
    · cases hsame o ho o' ho'
      exact absurd (hname.symm.trans hname') hne
    · cases hsame o ho o' ho'
      exact absurd (hkind.symm.trans hkind') (name_ne_replicaSet hcustom)
  · rcases (mem_pods_iff_of_isCustom hnamed hw' hcustom' hpod).1 hlisted' with
      ⟨o', ho', hkind', hname'⟩ | ⟨o', ho', hkind', hafter'⟩
    · cases hsame o ho o' ho'
      exact absurd (hkind'.symm.trans hkind) (name_ne_replicaSet hcustom')
    · cases hsame o ho o' ho'
      exact ⟨o, ho, hkind, hafter, hafter'⟩

/-- Where a pod has one controlling reference at most, custom kinds have no pod in common exactly if
no pod refers to a ReplicaSet that is named after two of them; as it is where none of their names
begins another. -/
theorem customsApart_iff (hnamed : r.Named)
    (hone : ∀ pod ∈ r.pods, pod.metadata.controllers.length ≤ 1) (key : String) :
    (r.CustomsApart key ↔ ∀ pod ∈ r.pods, ∀ o ∈ pod.metadata.controllers,
      o.kind = ControllerKind.name .replicaSet → ∀ a b, r.IsCustomName a → r.IsCustomName b →
        beginsWith a o.name = true → beginsWith b o.name = true → a = b) ∧
    ((∀ a b, r.IsCustomName a → r.IsCustomName b → beginsWith a b = true → a = b) →
      r.CustomsApart key) := by
  have hiff : r.CustomsApart key ↔ ∀ pod ∈ r.pods, ∀ o ∈ pod.metadata.controllers,
      o.kind = ControllerKind.name .replicaSet → ∀ a b, r.IsCustomName a → r.IsCustomName b →
        beginsWith a o.name = true → beginsWith b o.name = true → a = b := by
    constructor
    · intro hapart pod hpod o ho hkind a b ha hb hafter hafter'
      obtain ⟨w, hw, rfl, hcustom⟩ := ha.exists_workload key
      obtain ⟨w', hw', rfl, hcustom'⟩ := hb.exists_workload key
      have hlisted :=
        (mem_pods_iff_of_isCustom hnamed hw hcustom hpod).2 (.inr ⟨o, ho, hkind, hafter⟩)
      have hlisted' :=
        (mem_pods_iff_of_isCustom hnamed hw' hcustom' hpod).2 (.inr ⟨o, ho, hkind, hafter'⟩)
      rw [hapart pod hpod w hw w' hw' hcustom hcustom' hlisted hlisted']
    · intro hapart pod hpod w hw w' hw' hcustom hcustom' hlisted hlisted'
      refine eq_of_mem_workloads hw hw' (by_contra fun hne => ?_)
      obtain ⟨o, ho, hkind, hafter, hafter'⟩ := exists_replicaSet_of_shared hnamed hpod
        (hone pod hpod) hw hw' hcustom hcustom' hlisted hlisted' hne
      exact hne (hapart pod hpod o ho hkind _ _ (isCustomName_of_mem_workloads hw hcustom)
        (isCustomName_of_mem_workloads hw' hcustom') hafter hafter')
  refine ⟨hiff, fun hnames => hiff.2 fun pod hpod o ho hkind a b ha hb hafter hafter' => ?_⟩
  rcases beginsWith_or_of_common hafter hafter' with hab | hba
  · exact hnames a b ha hb hab
  · exact (hnames b a hb ha hba).symm

theorem canaries_customsApart :
    canaries.Named ∧ (∀ pod ∈ canaries.pods, pod.metadata.controllers.length ≤ 1) ∧
      (canaries.CustomsApart "" ↔ ∀ pod ∈ canaries.pods, ∀ o ∈ pod.metadata.controllers,
        o.kind = ControllerKind.name .replicaSet → ∀ a b, canaries.IsCustomName a →
          canaries.IsCustomName b → beginsWith a o.name = true → beginsWith b o.name = true →
            a = b) ∧
      ((∀ a b, canaries.IsCustomName a → canaries.IsCustomName b → beginsWith a b = true →
        a = b) → canaries.CustomsApart "") := by
  have hnamed : canaries.Named := by decide +kernel
  have hone : ∀ pod ∈ canaries.pods, pod.metadata.controllers.length ≤ 1 := by decide
  exact ⟨hnamed, hone, customsApart_iff hnamed hone ""⟩

/-- Two controllers of an unknown kind, of which one has a name that begins that of the other. -/
def neighbours : Resources where
  pods := [
    { metadata := { name := some "web-1-a", owners := [⟨"ReplicaSet", "web-1", true⟩] } },
    { metadata :=
        { name := some "web-api-1-a", owners := [⟨"ReplicaSet", "web-api-1", true⟩] } }]
  controllers
    | .replicaSet => [
      { metadata := { name := some "web-1", owners := [⟨"Rollout", "web", true⟩] } },
      { metadata := { name := some "web-api-1", owners := [⟨"Rollout", "web-api", true⟩] } }]
    | _ => []

theorem neighbours_share_pod :
    neighbours.Named ∧ (∀ pod ∈ neighbours.pods, pod.metadata.controllers.length ≤ 1) ∧
      (∀ c ∈ neighbours.controllers .replicaSet, c.metadata.controllers.length ≤ 1 ∧
        ∀ o ∈ c.metadata.controllers, beginsWith (o.name ++ "-") (Object.anyName c) = true) ∧
      ¬neighbours.CustomsApart "" := by
  have hnamed : neighbours.Named := by decide +kernel
  refine ⟨hnamed, by decide, by decide, fun hapart => ?_⟩
  have hentries : ∀ name ∈ ["web", "web-api"],
      (neighbours.resolve none).find? name = some (.custom "Rollout" (by decide +kernel)) := by
    decide +kernel
  have hcustom : ∀ name ∈ ["web", "web-api"], neighbours.IsCustomName name :=
    fun name hname => ⟨_, hentries name hname, rfl⟩
  obtain ⟨w, hw, hname, hw₁⟩ := (hcustom "web" (by decide)).exists_workload ""
  obtain ⟨w', hw', hname', hw₁'⟩ := (hcustom "web-api" (by decide)).exists_workload ""
  have hpod : neighbours.pods[1] ∈ neighbours.pods := List.getElem_mem (by decide)
  have hrefers : ∀ name ∈ ["web", "web-api"], neighbours.pods[1].RefersToReplicaSetOf name := by
    intro name hmem
    refine ⟨⟨"ReplicaSet", "web-api-1", true⟩, List.mem_singleton_self _, rfl, ?_⟩
    revert name
    decide
  have hsame : w = w' := hapart _ hpod w hw w' hw' hw₁ hw₁'
    ((mem_pods_iff_of_isCustom hnamed hw hw₁ hpod).2
      (.inr (hname ▸ hrefers "web" (by decide))))
    ((mem_pods_iff_of_isCustom hnamed hw' hw₁' hpod).2
      (.inr (hname' ▸ hrefers "web-api" (by decide))))
  rw [← hsame, hname] at hname'
  exact absurd hname' (by decide)

end Resources

end WorkloadMap
