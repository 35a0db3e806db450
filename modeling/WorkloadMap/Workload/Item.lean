import WorkloadMap.Istio.Object
import WorkloadMap.Workload.Basic

/-!
A workload as summarized in a listing.
-/
namespace WorkloadMap

structure WorkloadItem where
  name : String
  kind : Kind
  createdAt : Option Instant
  resourceVersion : Option String
  istioSidecar : Bool
  labels : Labels
  appLabel : Bool
  versionLabel : Bool
  podCount : Nat
  istioReferences : List IstioReference

/-- The references are to the objects among `selecting` that select the workload. -/
def WorkloadItem.ofWorkload (appLabel versionLabel : String) (selecting : List IstioObject)
    (w : Workload) : WorkloadItem where
  name := w.name
  kind := w.kind
  createdAt := w.createdAt
  resourceVersion := w.resourceVersion
  istioSidecar := w.istioSidecar
  labels := w.labels
  appLabel := w.labels.contains appLabel
  versionLabel := w.labels.contains versionLabel
  podCount := w.pods.length
  istioReferences := (selecting.filter (·.selectsWorkload w.labels)).map (·.reference)

structure WorkloadList where
  ns : NamespaceInfo
  workloads : List WorkloadItem

end WorkloadMap
