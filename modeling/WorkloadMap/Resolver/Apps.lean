import WorkloadMap.App
import WorkloadMap.Resolver.Fetch
import WorkloadMap.Workload.Build

/-!
Operations on the apps of a namespace.
-/
namespace WorkloadMap.Resolver

variable (r : Resolver)

/-- What selects the pods of an app, or of any app. -/
def appSelector (label : String) : Option String → String
  | none => label
  | some app => label ++ "=" ++ app

/-- The members of one app, or of every app, by the names of the apps. -/
def appMembers (ns : String) (only : Option String) : Batch (NameMap AppMembers) :=
  let label := r.config.appLabel
  let selector := appSelector label only
  let services : Batch (List Service) := r.call (.services ns)
  (services.both (r.namespaceResources ns (some selector))).map fun (services, resources) =>
    AppMembers.group label only services (resources.workloads r.config.sidecarKey (some selector))

def listApps (ns : String) (link : Bool) : Run AppList := do
  let info ← r.namespaceInfo ns
  let routing := r.linked link ns IstioKind.routing
  let selecting := r.linked link ns IstioKind.selecting
  let (apps, routing, selecting) ← r.fetch ((r.appMembers ns none).both (routing.both selecting))
  return ⟨info, apps.entries.map fun (name, members) => .ofMembers routing selecting name members⟩

def getApp (ns app : String) : Run App := do
  let info ← r.namespaceInfo ns
  let apps ← r.fetch (r.appMembers ns (some app))
  match apps.find? app with
  | none => throw (.notFound "App" app)
  | some members => return .ofMembers info app members

end WorkloadMap.Resolver
