import WorkloadMap.Istio.Kind
import WorkloadMap.Json.Printer
import WorkloadMap.Object.Decode

/-!
Requests to the API server. Each has a key, by which replies may be arranged, and a line, by which
it is logged.
-/
namespace WorkloadMap

/-- Where the objects of one kind are served. -/
structure Endpoint where
  groupVersion : String
  plural : String
deriving DecidableEq, Repr

namespace Endpoint

def namespaces : Endpoint := ⟨"v1", "namespaces"⟩

def pods : Endpoint := ⟨"v1", "pods"⟩

def services : Endpoint := ⟨"v1", "services"⟩

end Endpoint

def ControllerKind.endpoint (k : ControllerKind) : Endpoint where
  groupVersion := k.apiVersion
  plural := match k with
    | .deployment => "deployments"
    | .deploymentConfig => "deploymentconfigs"
    | .replicaSet => "replicasets"
    | .replicationController => "replicationcontrollers"
    | .statefulSet => "statefulsets"
    | .daemonSet => "daemonsets"
    | .job => "jobs"
    | .cronJob => "cronjobs"

def IstioKind.endpoint (k : IstioKind) : Endpoint where
  groupVersion := k.group ++ "/" ++ k.version
  plural := k.plural

inductive Request where
  /-- Which kinds the OpenShift group serves. -/
  | probe
  | list (endpoint : Endpoint) (ns : String) (selector : Option String)
  /-- Without a namespace for what belongs to none. -/
  | get (endpoint : Endpoint) (ns : Option String) (name : String)
  | patch (endpoint : Endpoint) (ns name : String) (body : Json)
  /-- The sync states of all proxies. -/
  | sync (ns service : String) (port : Nat)

namespace Request

def key : Request → String
  | .probe => "probe"
  | .list e _ _ => "list " ++ e.plural
  | .get e _ _ => "get " ++ e.plural
  | .patch e _ _ _ => "patch " ++ e.plural
  | .sync .. => "syncz"

def line : Request → String
  | .probe => "probe apps.openshift.io/v1"
  | .list e ns selector =>
    "list " ++ e.groupVersion ++ "/" ++ e.plural ++ " in " ++ ns ++
      match selector with
      | none => ""
      | some selector => " where " ++ selector
  | .get e ns name =>
    "get " ++ e.groupVersion ++ "/" ++ e.plural ++ "/" ++ name ++
      match ns with
      | none => ""
      | some ns => " in " ++ ns
  | .patch e ns name body =>
    "patch " ++ e.groupVersion ++ "/" ++ e.plural ++ "/" ++ name ++ " in " ++ ns ++
      " application/merge-patch+json " ++ body.render
  | .sync ns service port => "syncz " ++ ns ++ "/" ++ service ++ ":" ++ Text.digits 10 port

end Request

end WorkloadMap
