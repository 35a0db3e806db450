import WorkloadMap.Object.Basic

/-!
The kinds of object that the cache holds, and tables with one entry for each of them.
-/
namespace WorkloadMap

inductive CachedKind where
  | pod
  | deployment
  | replicaSet
  | statefulSet
  | daemonSet
  | service
deriving DecidableEq, Repr

namespace CachedKind

def all : List CachedKind :=
  [.pod, .deployment, .replicaSet, .statefulSet, .daemonSet, .service]

@[simp] theorem mem_all (k : CachedKind) : k ∈ all := by cases k <;> decide

def name : CachedKind → String
  | .pod => "Pod"
  | .deployment => "Deployment"
  | .replicaSet => "ReplicaSet"
  | .statefulSet => "StatefulSet"
  | .daemonSet => "DaemonSet"
  | .service => "Service"

def ofName? (name : String) : Option CachedKind := all.find? (·.name == name)

/-- What an object of a kind is. -/
def Item : CachedKind → Type
  | .pod => Pod
  | .service => Service
  | .deployment | .replicaSet | .statefulSet | .daemonSet => Controller

def itemMeta : (k : CachedKind) → k.Item → Meta
  | .pod, item => Pod.metadata item
  | .service, item => Service.metadata item
  | .deployment, item | .replicaSet, item | .statefulSet, item | .daemonSet, item =>
    Controller.metadata item

instance (k : CachedKind) : Object k.Item := ⟨itemMeta k⟩

end CachedKind

/-- A closure stands behind a look-up, so an update evaluates its entry before it makes the next
one. -/
structure ByKind (β : CachedKind → Type u) where
  get : (k : CachedKind) → β k

namespace ByKind

variable {β : CachedKind → Type u}

def update (t : ByKind β) (k : CachedKind) (f : β k → β k) : ByKind β :=
  let entry := f (t.get k)
  ⟨fun j => if h : k = j then h ▸ entry else t.get j⟩

@[simp] theorem get_update_self (t : ByKind β) (k : CachedKind) (f : β k → β k) :
    (t.update k f).get k = f (t.get k) := by
  simp [update]

theorem get_update_of_ne (t : ByKind β) {k j : CachedKind} (f : β k → β k) (h : j ≠ k) :
    (t.update k f).get j = t.get j := by
  simp [update, Ne.symm h]

@[ext] theorem ext {s t : ByKind β} (h : ∀ k, s.get k = t.get k) : s = t := by
  cases s; cases t; congr; funext k; exact h k

end ByKind

end WorkloadMap
