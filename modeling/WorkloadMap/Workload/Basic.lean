import WorkloadMap.PodSummary

/-!
A workload: a controller, or a pod on its own, with the pods it manages.
-/
namespace WorkloadMap

structure ServiceOverview where
  name : String
  ns : Option String
  labels : Labels
  selector : Labels
  ip : Option String
  createdAt : Option Instant
  resourceVersion : Option String
deriving DecidableEq

def ServiceOverview.ofService (s : Service) : ServiceOverview where
  name := Object.anyName s
  ns := s.metadata.ns
  labels := s.metadata.labels
  selector := s.selector
  ip := s.clusterIP
  createdAt := s.metadata.createdAt
  resourceVersion := s.metadata.resourceVersion

structure Workload where
  name : String
  kind : Kind
  createdAt : Option Instant := none
  resourceVersion : Option String := none
  labels : Labels := ∅
  istioSidecar : Bool := true
  replicas : Replicas := {}
  pods : List PodSummary := []
  services : List ServiceOverview := []
deriving DecidableEq

namespace Workload

/-- Without pods there is nothing to disprove a sidecar. The pods of a Deployment share a template,
so that the first stands for all. -/
def sidecarOf (kind : Kind) : List PodSummary → Bool
  | [] => true
  | pod :: pods => if kind = .controller .deployment then pod.hasSidecar
      else (pod :: pods).any (·.hasSidecar)

def withPods (w : Workload) (pods : List PodSummary) : Workload :=
  { w with pods, istioSidecar := sidecarOf w.kind pods }

/-- A service without a selector selects nothing. -/
def isServedBy (w : Workload) (s : Service) : Bool :=
  !s.selector.isEmpty && (Selector.equalities s.selector).selects w.labels

def withServices (w : Workload) (services : List Service) : Workload :=
  { w with services := (services.filter w.isServedBy).map ServiceOverview.ofService }

end Workload

end WorkloadMap
