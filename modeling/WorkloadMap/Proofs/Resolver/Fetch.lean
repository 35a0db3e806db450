import Mathlib.Data.List.Basic
import WorkloadMap.Proofs.Batch
import WorkloadMap.Proofs.Workload.Narrowed
import WorkloadMap.Resolver.Fetch

/-!
What is fetched from a cluster that answers. Main statements: one listing brings in the objects of
every kind in question, and what is fetched for one name is the same without the roots of others.
-/
namespace WorkloadMap

namespace Resources

variable {r : Resources} {kinds : ControllerKind → Bool}

/-- Kinds that are not in question count as empty. -/
def only (r : Resources) (kinds : ControllerKind → Bool) : Resources where
  pods := r.pods
  controllers k := if kinds k then r.controllers k else []

theorem controllers_only_of_true {k : ControllerKind} (hk : kinds k = true) :
    (r.only kinds).controllers k = r.controllers k :=
  if_pos hk

theorem controllers_only_of_false {k : ControllerKind} (hk : kinds k = false) :
    (r.only kinds).controllers k = [] :=
  if_neg (by simp [hk])

theorem Named.only (h : r.Named) : (r.only kinds).Named := by
  refine ⟨h.pods, fun k => ?_⟩
  cases hk : kinds k with
  | true =>
    rw [controllers_only_of_true hk]
    exact h.controllers k
  | false =>
    rw [controllers_only_of_false hk]
    exact ⟨by simp, by simp⟩

theorem mem_controllers_of_only {k : ControllerKind} {c : Controller}
    (h : c ∈ (r.only kinds).controllers k) : c ∈ r.controllers k := by
  cases hk : kinds k with
  | true => rwa [controllers_only_of_true hk] at h
  | false =>
    rw [controllers_only_of_false hk] at h
    cases h

theorem managers_only_subset : (r.only kinds).managers ⊆ r.managers := by
  intro o ho
  rcases mem_managers.1 ho with hpod | ⟨k, hk, c, hc, ho⟩
  · exact mem_managers.2 (.inl hpod)
  · exact mem_managers.2 (.inr ⟨k, hk, c, mem_controllers_of_only hc, ho⟩)

theorem objects_only_subset : (r.only kinds).objects ⊆ r.objects := by
  intro a ha
  rcases List.mem_append.1 ha with hpod | hcontroller
  · exact List.mem_append_left _ hpod
  · obtain ⟨k, hk, hmapped⟩ := List.mem_flatMap.1 hcontroller
    obtain ⟨c, hc, rfl⟩ := List.mem_map.1 hmapped
    exact List.mem_append_right _
      (List.mem_flatMap.2 ⟨k, hk, List.mem_map_of_mem (mem_controllers_of_only hc)⟩)

theorem WellNamed.only (h : r.WellNamed) : (r.only kinds).WellNamed where
  toNamed := h.toNamed.only
  apart a ha b hb := h.apart a (objects_only_subset ha) b (objects_only_subset hb)
  truthful o ho a ha := h.truthful o (managers_only_subset ho) a (objects_only_subset ha)

end Resources

namespace Resolver

/-- The source tells of a namespace what the cluster has in it, all in time, and of the objects of
one name those that it lists. A name that cannot be asked for gets no answer. -/
structure Sees (r : Resolver) (ns name : String) (cluster : Resources) : Prop where
  namespaceInfo : ∃ n : Namespace, (r.call (.namespaceInfo ns)).result = .ok (some n)
  pods : (r.call (.pods ns none)).Gives r.config.limit cluster.pods
  list : ∀ k, r.fetches k = true →
    (r.call (.controllers k ns)).Gives r.config.limit (cluster.controllers k)
  get : ∀ k, r.fetches k = true →
    (r.call (.controller k ns name)).Gives r.config.limit (cluster.controller? k name)

variable {r : Resolver} {ns name : String} {cluster : Resources} {limit : Nat}

theorem mem_fetchOrder (k : ControllerKind) : k ∈ fetchOrder := by
  cases k <;> decide

theorem gives_resources {pods : Batch (List Pod)}
    {controllers : ControllerKind → Batch (List Controller)} {found : Resources}
    (hpods : pods.Gives limit found.pods)
    (hcontrollers : ∀ k, (controllers k).Gives limit (found.controllers k)) :
    (resources pods controllers).Gives limit found := by
  have hkinds : (Batch.all (fetchOrder.map fun k => (controllers k).map (k, ·))).Gives limit
      (fetchOrder.map fun k => (k, found.controllers k)) :=
    .all fun k _ => (hcontrollers k).map (k, ·)
  have hfound : ∀ k, ((fetchOrder.map fun k => (k, found.controllers k)).lookup k).getD [] =
      found.controllers k := by
    intro k
    rw [List.lookup_graph found.controllers (mem_fetchOrder k)]
    rfl
  have hall := (hpods.both hkinds).map fun x =>
    ({ pods := x.1, controllers := fun k => (x.2.lookup k).getD [] } : Resources)
  simp only [hfound] at hall
  exact hall

theorem gives_of_resources {pods : Batch (List Pod)}
    {controllers : ControllerKind → Batch (List Controller)} {found : Resources}
    (h : (resources pods controllers).Gives limit found) :
    pods.Gives limit found.pods ∧ ∀ k, (controllers k).Gives limit (found.controllers k) := by
  obtain ⟨⟨_, ofKinds⟩, hboth, rfl⟩ := h.of_map
  obtain ⟨hpods, hkinds⟩ := hboth.of_both
  refine ⟨hpods, fun k => ?_⟩
  obtain ⟨cs, hlookup, hcs⟩ := hkinds.of_all_keyed (mem_fetchOrder k)
  simpa [hlookup] using hcs

theorem gives_listIf {kinds : ControllerKind → Bool} {k : ControllerKind} (h : kinds k = true →
      (r.call (.controllers k ns)).Gives limit (cluster.controllers k)) :
    (r.listIf (kinds k) k ns).Gives limit ((cluster.only kinds).controllers k) := by
  unfold listIf
  cases hk : kinds k with
  | true =>
    rw [Resources.controllers_only_of_true hk]
    exact h hk
  | false =>
    rw [Resources.controllers_only_of_false hk]
    exact .done _ _

theorem Sees.listIf (h : r.Sees ns name cluster) {k : ControllerKind} :
    (r.listIf (r.fetches k) k ns).Gives r.config.limit
      ((cluster.only r.fetches).controllers k) :=
  gives_listIf (h.list k)

theorem Sees.getIf (h : r.Sees ns name cluster) {k : ControllerKind} :
    (r.getIf (r.fetches k) k ns name).Gives r.config.limit
      ((cluster.only r.fetches).controller? k name).toList := by
  unfold Resolver.getIf Resources.controller?
  cases hk : r.fetches k with
  | true =>
    rw [Resources.controllers_only_of_true hk]
    exact (h.get k hk).map _
  | false =>
    rw [Resources.controllers_only_of_false hk]
    exact .done _ _

theorem wants_none (k : ControllerKind) : r.wants none k = r.fetches k := by
  simp [wants]

theorem Sees.namespaceResources (h : r.Sees ns name cluster) :
    (r.namespaceResources ns none).Gives r.config.limit (cluster.only r.fetches) :=
  gives_resources h.pods fun _ => h.listIf

theorem included_of_fetches {k : ControllerKind} (h : r.fetches k = true) :
    r.config.includes (.controller k) = true :=
  ((Bool.and_eq_true _ _).to_iff.1 h).1

/-- Whoever may fetch CronJobs may fetch Jobs, so that Jobs are not fetched for CronJobs alone. -/
theorem fetches_job_of_cronJob
    (hjobs : r.config.includes (.controller .cronJob) = true →
      r.config.includes (.controller .job) = true) :
    (r.fetches .job || r.fetches .cronJob) = r.fetches .job := by
  have hcron : r.fetches .cronJob = true → r.fetches .job = true := by
    intro hcron
    simpa [fetches] using hjobs (included_of_fetches hcron)
  cases hjob : r.fetches .job with
  | true => rfl
  | false =>
    cases hc : r.fetches .cronJob with
    | true => rw [hcron hc] at hjob; exact hjob
    | false => rfl

/-- Whether controllers of a kind are fetched for a name. Jobs are fetched for CronJobs as well, and
ReplicaSets for whatever has no rank. -/
def seeks (r : Resolver) (hint : Option Kind) (k : ControllerKind) : Bool :=
  match k with
  | .job => r.wants hint .job || r.wants hint .cronJob
  | .replicaSet => r.wants hint .replicaSet || hint.any (!·.isRanked)
  | k => r.wants hint k

/-- The controllers of a kind that are fetched for a name, by that name or all of them. -/
def candidates (r : Resolver) (ns name : String) (hint : Option Kind) (k : ControllerKind) :
    Batch (List Controller) :=
  if k ∈ ControllerKind.roots then r.getIf (r.seeks hint k) k ns name
  else r.listIf (r.seeks hint k) k ns

theorem workloadResources_eq (hint : Option Kind) :
    r.workloadResources ns name hint =
      resources (r.call (.pods ns none)) (r.candidates ns name hint) := by
  unfold workloadResources
  congr 1
  funext k
  cases k <;> rfl

theorem candidates_congr {hint hint' : Option Kind} {k : ControllerKind}
    (h : r.seeks hint k = r.seeks hint' k) :
    r.candidates ns name hint k = r.candidates ns name hint' k := by
  unfold candidates
  rw [h]

theorem candidates_of_not_seeks {hint : Option Kind} {k : ControllerKind}
    (h : r.seeks hint k = false) : r.candidates ns name hint k = .done [] := by
  unfold candidates
  rw [h]
  split <;> rfl

theorem fetches_replicaSet (r : Resolver) : r.fetches .replicaSet = true := by
  simp [fetches, Config.includes, Config.essential]

theorem fetches_of_wants {hint : Option Kind} {k : ControllerKind} (h : r.wants hint k = true) :
    r.fetches k = true :=
  ((Bool.and_eq_true _ _).to_iff.1 h).1

/-- Whatever the hint, nothing is sought that is not fetched, but Jobs for the sake of CronJobs. -/
theorem fetches_of_seeks {hint : Option Kind} {k : ControllerKind} (h : r.seeks hint k = true) :
    r.fetches k = true ∨ k = .job ∧ r.wants hint .cronJob = true := by
  cases k with
  | job =>
    rcases (Bool.or_eq_true _ _).to_iff.1 h with hwanted | hcron
    · exact .inl (fetches_of_wants hwanted)
    · exact .inr ⟨rfl, hcron⟩
  | replicaSet => exact .inl r.fetches_replicaSet
  | deployment | deploymentConfig | replicationController | statefulSet | daemonSet | cronJob =>
    exact .inl (fetches_of_wants h)

theorem seeks_none (hjobs : r.config.includes (.controller .cronJob) = true →
    r.config.includes (.controller .job) = true) (k : ControllerKind) :
    r.seeks none k = r.fetches k := by
  cases k with
  | job => simp only [seeks, wants_none, fetches_job_of_cronJob hjobs]
  | replicaSet => simp only [seeks, wants_none, Option.any_none, Bool.or_false]
  | deployment | deploymentConfig | replicationController | statefulSet | daemonSet | cronJob =>
    exact wants_none _

/-- For one name the same is fetched, but for the roots of other names. -/
theorem Sees.workloadResources (h : r.Sees ns name cluster)
    (hjobs : r.config.includes (.controller .cronJob) = true →
      r.config.includes (.controller .job) = true) :
    (r.workloadResources ns name none).Gives r.config.limit
      ((cluster.only r.fetches).narrowed name) := by
  rw [workloadResources_eq]
  refine gives_resources h.pods fun k => ?_
  unfold candidates
  rw [seeks_none hjobs]
  split
  next hk =>
    rw [Resources.controllers_narrowed_of_mem hk]
    exact h.getIf
  next hk =>
    rw [Resources.controllers_narrowed_of_notMem hk]
    exact h.listIf

end Resolver

end WorkloadMap
