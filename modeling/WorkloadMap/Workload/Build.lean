import WorkloadMap.Index
import WorkloadMap.Workload.Basic

/-!
Building workloads from the names in an index and the objects they were resolved from.
-/
namespace WorkloadMap

/-- Whether `name` begins with `start`. -/
def beginsWith (start name : String) : Bool :=
  start.toList.isPrefixOf name.toList

namespace Resources

variable (r : Resources) (sidecarKey : String)

def podsWhere (p : Pod → Bool) : List PodSummary :=
  (r.pods.filter p).map (PodSummary.ofPod sidecarKey)

/-- A known controller has the pods that carry the labels of its template. -/
def controllerWorkload? (k : ControllerKind) (name : String) : Option Workload :=
  (r.controller? k name).map fun c =>
    { Workload.withPods { name, kind := .controller k }
        (r.podsWhere sidecarKey fun pod =>
          (Selector.equalities c.template).selects pod.metadata.labels) with
      labels := c.template
      createdAt := c.metadata.createdAt
      resourceVersion := c.metadata.resourceVersion
      replicas := c.replicas }

def podWorkload? (name : String) : Option Workload :=
  (r.pod? name).map fun pod =>
    { Workload.withPods { name, kind := .pod } [PodSummary.ofPod sidecarKey pod] with
      labels := pod.metadata.labels
      createdAt := pod.metadata.createdAt
      resourceVersion := pod.metadata.resourceVersion
      replicas := ⟨1, 1, 1⟩ }

/-- A controller of an unknown kind is expected to manage its pods through ReplicaSets named after
it. -/
def childKindName (kind : Kind) : String :=
  if kind.isRanked then kind.name else ControllerKind.name .replicaSet

def isManagedBy (name : String) (kind : Kind) (pod : Pod) : Bool :=
  pod.metadata.controllers.any fun owner =>
    (owner.kind == childKindName kind && beginsWith name owner.name) ||
      (owner.kind == kind.name && owner.name == name)

/-- The first ReplicaSet named after the controller lends it what is known of it. -/
def customWorkload (name : String) (kind : Kind) : Workload :=
  let w := Workload.withPods { name, kind } (r.podsWhere sidecarKey (isManagedBy name kind))
  match (r.controllers .replicaSet).find? fun c => beginsWith name (Object.anyName c) with
  | none => w
  | some c =>
    { w with
      labels := c.template
      createdAt := c.metadata.createdAt
      resourceVersion := c.metadata.resourceVersion
      replicas := c.replicas }

/-- The kind asked for says how the workload is built; one of a custom kind still has the kind it
resolved to. -/
def build? (name : String) (asked resolved : Kind) : Option Workload :=
  match asked with
  | .controller k => r.controllerWorkload? sidecarKey k name
  | .pod => r.podWorkload? sidecarKey name
  | .custom .. => some (r.customWorkload sidecarKey name resolved)

/-- In the order of names; what has no object is left out. -/
def buildAll (index : Index) : List Workload :=
  index.entries.filterMap fun (name, kind) => r.build? sidecarKey name kind kind

def workloads (selector : Option String) : List Workload :=
  r.buildAll sidecarKey (r.resolve selector)

/-- The kind a name resolves to, or else the hint if there is such an object, as of a CronJob
between two runs. -/
def resolvedKind? (name : String) (hint : Option Kind) : Option Kind :=
  match (r.resolve none).find? name with
  | some kind => some kind
  | none => hint.filter fun kind => r.contains kind name

def workload? (name : String) (hint : Option Kind) : Option Workload := do
  let resolved ← r.resolvedKind? name hint
  r.build? sidecarKey name (hint.getD resolved) resolved

end Resources

end WorkloadMap
