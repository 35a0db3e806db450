import WorkloadMap.Istio.Object
import WorkloadMap.Workload.Basic

/-!
Apps: the services and workloads that share a value of one label. Main notion: the grouping of a
list of services and a list of workloads by that value.
-/
namespace WorkloadMap

/-- The distinct values of each key of the joined label maps. -/
abbrev JoinedLabels := NameMap NameSet

namespace JoinedLabels

def join (joined : JoinedLabels) (labels : Labels) : JoinedLabels :=
  labels.entries.foldl (fun joined (key, value) =>
    joined.update key fun values => NameSet.add (values.getD ∅) value) joined

/-- The values of a key in ascending order, separated by commas. -/
def toLabels (joined : JoinedLabels) : Labels :=
  joined.map fun values => ",".intercalate values.toList

end JoinedLabels

/-- The services and workloads of one app, in the order in which they were given. -/
structure AppMembers where
  services : List Service := []
  workloads : List Workload := []

namespace AppMembers

/-- The app of a service is the one it selects. -/
def appOf (label : String) (s : Service) : Option String := s.selector.find? label

def addService (label : String) (apps : NameMap AppMembers) (s : Service) : NameMap AppMembers :=
  match appOf label s with
  | none => apps
  | some name => apps.update name fun held =>
    let held := held.getD {}
    { held with services := held.services ++ [s] }

def addWorkload (label : String) (apps : NameMap AppMembers) (w : Workload) : NameMap AppMembers :=
  match w.labels.find? label with
  | none => apps
  | some name => apps.update name fun held =>
    let held := held.getD {}
    { held with workloads := held.workloads ++ [w] }

/-- Services of another app than the one asked for are left out; a workload was selected by its
pods, and is grouped by its own labels. -/
def group (label : String) (only : Option String) (services : List Service)
    (workloads : List Workload) : NameMap AppMembers :=
  let services := services.filter fun s => only.all fun name => appOf label s == some name
  workloads.foldl (addWorkload label) (services.foldl (addService label) ∅)

def labels (members : AppMembers) : Labels :=
  let joined :=
    members.services.foldl (fun joined s => JoinedLabels.join joined s.metadata.labels) ∅
  (members.workloads.foldl (fun joined w => JoinedLabels.join joined w.labels) joined).toLabels

/-- Routes to each service in turn, then what selects any of the workloads, once each. -/
def references (members : AppMembers) (routing selecting : List IstioObject) :
    List IstioReference :=
  let routes := members.services.flatMap fun s =>
    (routing.filter fun o =>
      o.refersToService (Object.anyName s) (s.metadata.ns.getD "")).map (·.reference)
  let selections := members.workloads.flatMap fun w =>
    (selecting.filter (·.selectsWorkload w.labels)).map (·.reference)
  routes ++ selections.foldl (fun seen o => if o ∈ seen then seen else seen ++ [o]) []

end AppMembers

/-- An app as summarized in a listing. -/
structure AppItem where
  name : String
  istioSidecar : Bool
  labels : Labels
  istioReferences : List IstioReference

/-- An app without workloads has nothing to disprove a sidecar. -/
def AppItem.ofMembers (routing selecting : List IstioObject) (name : String)
    (members : AppMembers) :
    AppItem where
  name := name
  istioSidecar := members.workloads.all (·.istioSidecar)
  labels := members.labels
  istioReferences := members.references routing selecting

structure AppList where
  ns : NamespaceInfo
  apps : List AppItem

/-- An app with its workloads, each with whether it has a sidecar. -/
structure App where
  ns : NamespaceInfo
  name : String
  workloads : List (String × Bool)
  serviceNames : List String

def App.ofMembers (ns : NamespaceInfo) (name : String) (members : AppMembers) : App where
  ns := ns
  name := name
  workloads := members.workloads.map fun w => (w.name, w.istioSidecar)
  serviceNames := members.services.map Object.anyName

end WorkloadMap
