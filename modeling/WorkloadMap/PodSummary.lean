import WorkloadMap.Json.Parser
import WorkloadMap.Object.Basic
import WorkloadMap.Proxy

/-!
A pod as it appears in a workload, with the sidecars that an annotation says were injected into it.
An annotation that cannot be read counts as none.
-/
namespace WorkloadMap

/-- The names of the injected containers. -/
structure Sidecar where
  containers : List String := []
  initContainers : List String := []
deriving DecidableEq, Repr, Inhabited

/-- A record of two lists of texts, of which each may be missing. -/
def Sidecar.decode? (text : String) : Option Sidecar := do
  let v ← Json.parse? text
  let fields ← v.fields? ["containers", "initContainers"]
  let lists ← fields.mapM fun
    | none => some []
    | some v => Json.list? Json.text? v
  match lists with
  | [containers, initContainers] => some { containers, initContainers }
  | _ => none

/-- The object named by an owner reference. -/
structure Reference where
  name : String
  kind : String
deriving DecidableEq, Repr

structure PodSummary where
  name : String
  labels : Labels
  createdAt : Option Instant
  createdBy : List Reference
  istioContainers : List Container
  istioInitContainers : List Container
  status : Option String
  proxyStatus : Option ProxyStatus := none
deriving DecidableEq

namespace PodSummary

/-- Each name with the image of the first container that bears it. -/
def withImages (containers : List Container) (names : List String) : List Container :=
  names.map fun name =>
    ⟨name, ((containers.find? (·.name == name)).map (·.image)).getD ""⟩

def sidecar (sidecarKey : String) (pod : Pod) : Sidecar :=
  ((pod.metadata.annotations.find? sidecarKey).bind Sidecar.decode?).getD {}

def ofPod (sidecarKey : String) (pod : Pod) : PodSummary :=
  let sidecar := sidecar sidecarKey pod
  { name := Object.anyName pod
    labels := pod.metadata.labels
    createdAt := pod.metadata.createdAt
    createdBy := pod.metadata.owners.map fun o => ⟨o.name, o.kind⟩
    istioContainers := withImages pod.containers sidecar.containers
    istioInitContainers := withImages pod.initContainers sidecar.initContainers
    status := pod.phase }

@[simp] theorem ofPod_name (sidecarKey : String) (pod : Pod) :
    (ofPod sidecarKey pod).name = Object.anyName pod :=
  rfl

/-- Init containers alone make no sidecar. -/
def hasSidecar (pod : PodSummary) : Bool :=
  !pod.istioContainers.isEmpty

end PodSummary

end WorkloadMap
