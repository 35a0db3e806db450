/-!
The kinds of object that pods are reported under. Eight kinds of controller are known, a pod may
stand for itself, and any other name is a custom kind. Which of two claims to one name wins is
decided by rank. Main statement: a kind is its name.
-/
namespace WorkloadMap

inductive ControllerKind where
  | deployment
  | deploymentConfig
  | replicaSet
  | replicationController
  | statefulSet
  | daemonSet
  | job
  | cronJob
deriving DecidableEq, Repr

namespace ControllerKind

def name : ControllerKind → String
  | .deployment => "Deployment"
  | .deploymentConfig => "DeploymentConfig"
  | .replicaSet => "ReplicaSet"
  | .replicationController => "ReplicationController"
  | .statefulSet => "StatefulSet"
  | .daemonSet => "DaemonSet"
  | .job => "Job"
  | .cronJob => "CronJob"

def all : List ControllerKind :=
  [.deployment, .deploymentConfig, .replicaSet, .replicationController, .statefulSet, .daemonSet,
    .job, .cronJob]

@[simp] theorem mem_all (k : ControllerKind) : k ∈ all := by cases k <;> decide

theorem name_injective {a b : ControllerKind} (h : a.name = b.name) : a = b := by
  cases a <;> cases b <;> first | rfl | (revert h; decide)

end ControllerKind

/-- Names that stand for no custom kind. -/
def knownKindNames : List String := "Pod" :: ControllerKind.all.map (·.name)

theorem ControllerKind.name_mem (k : ControllerKind) : k.name ∈ knownKindNames := by
  cases k <;> decide

inductive Kind where
  | controller (k : ControllerKind)
  | pod
  | custom (name : String) (unknown : name ∉ knownKindNames)
deriving DecidableEq

namespace Kind

def name : Kind → String
  | .controller k => k.name
  | .pod => "Pod"
  | .custom name _ => name

/-- Every name is the name of exactly one kind. -/
def ofName (name : String) : Kind :=
  match h : ControllerKind.all.find? (·.name == name) with
  | some k => .controller k
  | none =>
    if hp : name = "Pod" then .pod
    else .custom name (by
      simp only [knownKindNames, List.mem_cons, List.mem_map, not_or, not_exists, not_and]
      refine ⟨hp, fun k hk hn => ?_⟩
      have := List.find?_eq_none.1 h k hk
      simp [hn] at this)

@[simp] theorem name_ofName (n : String) : (ofName n).name = n := by
  unfold ofName
  split
  next k h => simpa [name] using List.find?_some h
  next =>
    split
    next hp => exact hp.symm
    next => rfl

theorem name_injective {a b : Kind} (h : a.name = b.name) : a = b := by
  have hpod (k : ControllerKind) : k.name ≠ "Pod" := by cases k <;> decide
  cases a with
  | controller k =>
    cases b with
    | controller l => rw [ControllerKind.name_injective h]
    | pod => exact absurd h (hpod k)
    | custom n hn =>
      have hn' : k.name = n := h
      exact absurd (hn' ▸ k.name_mem) hn
  | pod =>
    cases b with
    | controller l => exact absurd h.symm (hpod l)
    | pod => rfl
    | custom n hn =>
      have hn' : "Pod" = n := h
      exact absurd (by simp [← hn', knownKindNames]) hn
  | custom n hn =>
    cases b with
    | controller l =>
      have hn' : n = l.name := h
      exact absurd (hn' ▸ l.name_mem) hn
    | pod =>
      have hn' : n = "Pod" := h
      exact absurd (by simp [hn', knownKindNames]) hn
    | custom m hm =>
      have hn' : n = m := h
      subst hn'
      rfl

@[simp] theorem ofName_name (k : Kind) : ofName k.name = k :=
  name_injective (name_ofName _)

def isCustom : Kind → Bool
  | .custom .. => true
  | _ => false

/-- Kinds without a rank yield to every kind that has one. -/
def rank : Kind → Option Int
  | .controller .deployment => some 6
  | .controller .deploymentConfig => some 5
  | .controller .replicaSet => some 4
  | .controller .replicationController => some 3
  | .controller .statefulSet => some 2
  | .controller .job => some 1
  | .controller .daemonSet => some 0
  | .pod => some (-1)
  | .controller .cronJob => none
  | .custom .. => none

def isRanked (k : Kind) : Bool := k.rank.isSome

/-- The ranks as numbers, where no rank is the least. -/
def strength (k : Kind) : Nat :=
  match k.rank with
  | none => 0
  | some r => (r + 2).toNat

/-- The higher ranked of two claims to a name; of two as high the first. -/
def stronger (first second : Kind) : Kind :=
  if second.strength ≤ first.strength then first else second

/-- The kinds through which a workload may be patched, in the order in which failures are told. -/
def patchable : List Kind :=
  [.controller .deployment, .controller .replicaSet, .controller .replicationController,
    .controller .deploymentConfig, .controller .statefulSet, .controller .job,
    .controller .cronJob, .pod, .controller .daemonSet]

end Kind

end WorkloadMap
