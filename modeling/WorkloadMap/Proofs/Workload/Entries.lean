import WorkloadMap.Proofs.Occurrence
import WorkloadMap.Proofs.Text.Bytes
import WorkloadMap.Proofs.Workload.Custom
import WorkloadMap.Proofs.Workload.Pods

/-!
What is built for the entries of an index, whatever index and objects these are. Main statement:
each entry that has an object, or is of a custom kind, has one workload, with the pods that its kind
says, and there is no other.
-/
namespace WorkloadMap

/-- What is made of the members of a list, where that is told by a test of them. -/
theorem forall₂_filter_filterMap {α β : Type} {as : List α} {test : α → Bool} {make : α → Option β}
    {R : α → β → Prop} (htest : ∀ a, test a = (make a).isSome)
    (hmake : ∀ a b, make a = some b → R a b) :
    List.Forall₂ R (as.filter test) (as.filterMap make) := by
  induction as with
  | nil => exact .nil
  | cons a as ih =>
    have ha := htest a
    cases hmade : make a with
    | none =>
      rw [List.filterMap_cons_none hmade, List.filter_cons_of_neg (by simp [ha, hmade])]
      exact ih
    | some b =>
      rw [List.filterMap_cons_some hmade, List.filter_cons_of_pos (by simp [ha, hmade])]
      exact .cons (hmake a b hmade) ih

namespace Object

variable {α : Type} [Object α] {objects : List α} {name : String} {o : α}

/-- The first of several objects of one name. -/
def IsFirstNamed (objects : List α) (name : String) (o : α) : Prop :=
  IsFirst (fun o => (metadata o).name = some name) objects o

theorem find?_eq_some_iff_isFirstNamed :
    find? objects name = some o ↔ IsFirstNamed objects name o :=
  find?_eq_some_iff_isFirst fun _ => beq_iff_eq

end Object

namespace Resources

variable {r : Resources} {key name : String} {kind : Kind} {w : Workload}

/-- The pods that a workload has by its name and kind. -/
inductive Gathers (r : Resources) (name : String) : Kind → List Pod → Prop
  | controller {k : ControllerKind} {c : Controller}
      (first : Object.IsFirstNamed (r.controllers k) name c) :
      Gathers r name (.controller k) (r.pods.filter fun pod => pod.Carries c)
  | pod {pod : Pod} (first : Object.IsFirstNamed r.pods name pod) : Gathers r name .pod [pod]
  | custom (kind : String) (unknown : kind ∉ knownKindNames) :
      Gathers r name (.custom kind unknown) (r.pods.filter fun pod =>
        pod.metadata.RefersTo kind name ∨ pod.RefersToReplicaSetOf name)

theorem Gathers.sublist {pods : List Pod} (h : r.Gathers name kind pods) : pods.Sublist r.pods := by
  cases h with
  | controller => exact List.filter_sublist
  | pod first => exact List.singleton_sublist.2 first.mem
  | custom => exact List.filter_sublist

/-- A workload of an entry. -/
structure IsBuilt (r : Resources) (key : String) (entry : String × Kind) (w : Workload) : Prop where
  name : w.name = entry.1
  kind : w.kind = entry.2
  pods : ∃ pods, r.Gathers entry.1 entry.2 pods ∧ pods.Sublist r.pods ∧
    w.pods = pods.map (PodSummary.ofPod key) ∧ w.pods.map (·.name) = pods.map Object.anyName

theorem exists_gathers (h : r.build? key name kind kind = some w) :
    ∃ pods, r.Gathers name kind pods ∧ w.pods = pods.map (PodSummary.ofPod key) := by
  cases kind with
  | controller k =>
    obtain ⟨c, hc, _, _, hpods⟩ := controllerWorkload?_eq_some h
    refine ⟨_, .controller (Object.find?_eq_some_iff_isFirstNamed.1 hc), ?_⟩
    rw [hpods, podsWhere]
    congr 1
    exact List.filter_congr fun pod _ => by
      rw [Bool.eq_iff_iff, decide_eq_true_iff]
      exact Selector.selects_equalities
  | pod =>
    obtain ⟨pod, hpod, _, _, hpods⟩ := podWorkload?_eq_some h
    exact ⟨[pod], .pod (Object.find?_eq_some_iff_isFirstNamed.1 hpod), hpods⟩
  | custom n unknown =>
    refine ⟨_, .custom n unknown, ?_⟩
    rw [← Option.some.inj h, customWorkload_pods, podsWhere]
    congr 1
    exact List.filter_congr fun pod _ => by
      rw [Bool.eq_iff_iff, decide_eq_true_iff]
      exact isManagedBy_iff rfl

theorem isBuilt_of_build? (h : r.build? key name kind kind = some w) :
    r.IsBuilt key (name, kind) w := by
  obtain ⟨hname, hkind⟩ := name_kind_of_build? h
  obtain ⟨pods, hgathers, hpods⟩ := exists_gathers h
  have hnames : w.pods.map (·.name) = pods.map Object.anyName := by
    rw [hpods, List.map_map]
    exact List.map_congr_left fun pod _ => PodSummary.ofPod_name key pod
  exact ⟨hname, hkind, pods, hgathers, hgathers.sublist, hpods, hnames⟩

/-- An index is built into one workload for each entry that has an object or is of a custom kind, in
the order of the entries and so in strictly ascending byte order of names. -/
theorem buildAll_oneForEach (r : Resources) (key : String) (index : Index) :
    List.Forall₂ (r.IsBuilt key)
        (index.entries.filter fun (name, kind) => kind.isCustom || r.contains kind name)
        (r.buildAll key index) ∧
      ((r.buildAll key index).map fun w => Text.bytes w.name).Pairwise (· < ·) := by
  refine ⟨forall₂_filter_filterMap (fun entry => ?_) fun entry w hbuilt => ?_, ?_⟩
  · exact (r.isSome_build? key entry.1 entry.2).symm
  · exact isBuilt_of_build? hbuilt
  have hascending : ((r.buildAll key index).map (·.name)).Pairwise (· < ·) :=
    ascending_buildAll index
  rw [List.pairwise_map] at hascending ⊢
  exact hascending.imp Text.bytes_lt_of_lt

end Resources

end WorkloadMap
