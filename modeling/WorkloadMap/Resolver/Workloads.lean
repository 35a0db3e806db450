import WorkloadMap.Resolver.Fetch
import WorkloadMap.Workload.Build
import WorkloadMap.Workload.Item

/-!
Operations on the workloads and pods of a namespace.
-/
namespace WorkloadMap

/-- Only a pod with a sidecar is looked up. A look-up that fails leaves it without a status. -/
def PodSummary.attachProxyStatus [Monad m]
    (lookUp : String → m (Except Failure (Option SyncStatus))) (pod : PodSummary) :
    m PodSummary := do
  if !pod.hasSidecar then return pod
  match ← lookUp pod.name with
  | .ok status => return { pod with proxyStatus := status.map SyncStatus.toProxyStatus }
  | .error _ => return { pod with proxyStatus := none }

/-- The pods are looked up in their order. -/
def Workload.attachProxyStatus [Monad m] (lookUp : String → m (Except Failure (Option SyncStatus)))
    (w : Workload) : m Workload := do
  let pods ← w.pods.mapM (·.attachProxyStatus lookUp)
  return { w with pods }

namespace Resolver

variable (r : Resolver)

def listWorkloads (ns : String) (link : Bool) : Run WorkloadList := do
  let info ← r.namespaceInfo ns
  let (resources, selecting) ←
    r.fetch ((r.namespaceResources ns none).both (r.linked link ns IstioKind.selecting))
  let workloads := resources.workloads r.config.sidecarKey none
  let item := WorkloadItem.ofWorkload r.config.appLabel r.config.versionLabel selecting
  return ⟨info, workloads.map item⟩

/-- The workload that a name resolves to. -/
def found (resources : Resources) (name : String) (hint : Option Kind) : Run Workload :=
  match resources.workload? r.config.sidecarKey name hint with
  | some w => return w
  | none => throw (.notFound "Workload" name)

/-- Services are fetched only to be told. -/
def services (included : Bool) (ns : String) : Batch (List Service) :=
  if included then r.call (.services ns) else .done []

def getWorkload (ns name : String) (hint : Option Kind) (withServices : Bool) : Run Workload := do
  let _ ← r.namespaceInfo ns
  let (resources, services) ←
    r.fetch ((r.workloadResources ns name hint).both (r.services withServices ns))
  let w ← r.found resources name hint
  let w ← w.attachProxyStatus fun pod => (r.syncStatus ns pod).run
  return if withServices then w.withServices services else w

/-- The kinds that an update tries. A hint that cannot be patched is none. -/
def patchTargets (hint : Option Kind) : List Kind :=
  let kinds := match hint with
    | some kind => if kind ∈ Kind.patchable then [kind] else Kind.patchable
    | none => Kind.patchable
  kinds.filter fun kind =>
    r.config.includes kind && (kind != .controller .deploymentConfig || r.source.openshift)

/-- The first failure, where it is none that there is no object of a kind. -/
def verdict (results : List (Except Failure Unit)) : Except Failure Unit :=
  match results.find? fun
    | .ok _ => false
    | .error e => !e.isNotFound with
  | some (.error e) => .error e
  | _ => .ok ()

def updateWorkload (ns name : String) (hint : Option Kind) (patch : Json) : Run Unit := do
  let _ ← r.namespaceInfo ns
  let patches : List (Batch Unit) :=
    (r.patchTargets hint).map fun kind => r.call (.patch kind ns name patch)
  let results ← r.fetch (.settled patches)
  MonadExcept.ofExcept (verdict results)

def listPods (ns : String) (selector : Option String) : Run (List PodSummary) := do
  let _ ← r.namespaceInfo ns
  let pods : List Pod ← r.fetch (r.call (.pods ns selector))
  return pods.map (PodSummary.ofPod r.config.sidecarKey)

def getPod (ns name : String) : Run PodSummary := do
  let _ ← r.namespaceInfo ns
  match ← r.fetch (r.call (.pod ns name)) with
  | (none : Option Pod) => throw (.notFound "Pod" name)
  | some pod => return .ofPod r.config.sidecarKey pod

/-- The app that a workload belongs to, if it is labeled with one. -/
def appName (ns name : String) : Run (Option String) := do
  let _ ← r.namespaceInfo ns
  let resources ← r.fetch (r.workloadResources ns name none)
  let w ← r.found resources name none
  return w.labels.find? r.config.appLabel

end Resolver

end WorkloadMap
