import WorkloadMap.Resolver.Basic
import WorkloadMap.Resources

/-!
What has to be fetched to resolve a namespace or one workload. All of it is needed: ownership told
from some of the objects would be wrong.
-/
namespace WorkloadMap.Resolver

variable (r : Resolver)

/-- The order in which controllers are fetched, and in which failures at one time are told. -/
def fetchOrder : List ControllerKind :=
  [.deployment, .replicaSet, .replicationController, .deploymentConfig, .statefulSet, .daemonSet,
    .job, .cronJob]

/-- Kinds that the settings exclude, or that the cluster does not have, are not fetched. -/
def fetches (k : ControllerKind) : Bool :=
  r.config.includes (.controller k) && (k != .deploymentConfig || r.source.openshift)

/-- The pods together with the controllers of each kind. -/
def resources (pods : Batch (List Pod)) (controllers : ControllerKind → Batch (List Controller)) :
    Batch Resources :=
  let ofKinds := Batch.all (fetchOrder.map fun k => (controllers k).map (k, ·))
  (pods.both ofKinds).map fun (pods, found) =>
    { pods, controllers := fun k => (found.lookup k).getD [] }

/-- Nothing is fetched unless it is wanted. -/
def listIf (wanted : Bool) (k : ControllerKind) (ns : String) : Batch (List Controller) :=
  if wanted then r.call (.controllers k ns) else .done []

def getIf (wanted : Bool) (k : ControllerKind) (ns name : String) : Batch (List Controller) :=
  if wanted then (r.call (.controller k ns name)).map Option.toList else .done []

/-- Everything in a namespace. The selector is for pods alone. -/
def namespaceResources (ns : String) (selector : Option String) : Batch Resources :=
  resources (r.call (.pods ns selector)) fun k => r.listIf (r.fetches k) k ns

/-- Whether a workload may be of a kind, going by the hint. -/
def wants (hint : Option Kind) (k : ControllerKind) : Bool :=
  r.fetches k && hint.all (· == .controller k)

/-- All pods, and of the controllers those that could be the workload by their name, where they can
be asked for by name. A CronJob manages pods through Jobs, and an unknown kind through ReplicaSets.
-/
def workloadResources (ns name : String) (hint : Option Kind) : Batch Resources :=
  resources (r.call (.pods ns none)) fun k =>
    match k with
    | .deployment | .deploymentConfig | .statefulSet | .daemonSet =>
      r.getIf (r.wants hint k) k ns name
    | .replicaSet => r.listIf (r.wants hint k || hint.any (!·.isRanked)) k ns
    | .replicationController | .cronJob => r.listIf (r.wants hint k) k ns
    | .job => r.listIf (r.wants hint .job || r.wants hint .cronJob) k ns

/-- The objects of several kinds of Istio object, in the order of the kinds. -/
def istioObjects (ns : String) (kinds : List IstioKind) : Batch (List IstioObject) :=
  (Batch.all (kinds.map fun k => r.call (.istioObjects k ns))).map List.flatten

/-- Istio objects are fetched only to be linked. -/
def linked (link : Bool) (ns : String) (kinds : List IstioKind) : Batch (List IstioObject) :=
  if link then r.istioObjects ns kinds else .done []

end WorkloadMap.Resolver
