import WorkloadMap.App
import WorkloadMap.Workload.Item

/-!
What is told of workloads, pods and apps, as JSON. The order of the fields is that of the text that
a command prints.
-/
namespace WorkloadMap.Report

def optional (tell : α → Json) : Option α → Json
  | none => .null
  | some a => tell a

def list (tell : α → Json) (xs : List α) : Json := .array (xs.map tell)

def labels (ls : Labels) : Json := .record (ls.entries.map fun (key, value) => (key, .text value))

def instant (t : Instant) : Json := .text t.render

def container (c : Container) : Json := .record [("name", .text c.name), ("image", .text c.image)]

def proxyStatus (s : ProxyStatus) : Json :=
  .record [("CDS", .text s.cds), ("EDS", .text s.eds), ("LDS", .text s.lds), ("RDS", .text s.rds)]

def pod (p : PodSummary) : Json :=
  .record [
    ("name", .text p.name),
    ("labels", labels p.labels),
    ("createdAt", optional instant p.createdAt),
    ("createdBy",
      list (fun r => .record [("name", .text r.name), ("kind", .text r.kind)]) p.createdBy),
    ("istioContainers", list container p.istioContainers),
    ("istioInitContainers", list container p.istioInitContainers),
    ("status", optional .text p.status),
    ("proxyStatus", optional proxyStatus p.proxyStatus)]

def service (s : ServiceOverview) : Json :=
  .record [
    ("name", .text s.name),
    ("namespace", optional .text s.ns),
    ("labels", labels s.labels),
    ("selector", labels s.selector),
    ("ip", optional .text s.ip),
    ("createdAt", optional instant s.createdAt),
    ("resourceVersion", optional .text s.resourceVersion)]

/-- Runtimes are found by others; none are known here. -/
def runtimes : Json := .array []

def workload (w : Workload) : Json :=
  .record [
    ("name", .text w.name),
    ("kind", .text w.kind.name),
    ("createdAt", optional instant w.createdAt),
    ("resourceVersion", optional .text w.resourceVersion),
    ("labels", labels w.labels),
    ("istioSidecar", .bool w.istioSidecar),
    ("desiredReplicas", .int w.replicas.desired),
    ("currentReplicas", .int w.replicas.current),
    ("availableReplicas", .int w.replicas.available),
    ("pods", list pod w.pods),
    ("services", list service w.services),
    ("runtimes", runtimes)]

def reference (r : IstioReference) : Json :=
  .record [("objectType", .text r.objectType), ("name", .text r.name), ("namespace", .text r.ns)]

def workloadItem (w : WorkloadItem) : Json :=
  .record [
    ("name", .text w.name),
    ("kind", .text w.kind.name),
    ("createdAt", optional instant w.createdAt),
    ("resourceVersion", optional .text w.resourceVersion),
    ("istioSidecar", .bool w.istioSidecar),
    ("labels", labels w.labels),
    ("appLabel", .bool w.appLabel),
    ("versionLabel", .bool w.versionLabel),
    ("podCount", .int w.podCount),
    ("istioReferences", list reference w.istioReferences)]

def namespaceInfo (n : NamespaceInfo) : Json :=
  .record [
    ("name", .text n.name),
    ("labels", labels n.labels),
    ("creationTimestamp", optional instant n.createdAt)]

def workloadList (l : WorkloadList) : Json :=
  .record [("namespace", namespaceInfo l.ns), ("workloads", list workloadItem l.workloads)]

def appItem (a : AppItem) : Json :=
  .record [
    ("name", .text a.name),
    ("istioSidecar", .bool a.istioSidecar),
    ("labels", labels a.labels),
    ("istioReferences", list reference a.istioReferences)]

def appList (l : AppList) : Json :=
  .record [("namespace", namespaceInfo l.ns), ("apps", list appItem l.apps)]

def app (a : App) : Json :=
  let workload := fun ((name, sidecar) : String × Bool) =>
    Json.record [("workloadName", .text name), ("istioSidecar", .bool sidecar)]
  .record [
    ("namespace", namespaceInfo a.ns),
    ("name", .text a.name),
    ("workloads", list workload a.workloads),
    ("serviceNames", list .text a.serviceNames),
    ("runtimes", runtimes)]

end WorkloadMap.Report
