import WorkloadMap.Json.Decode
import WorkloadMap.Object.Basic
import WorkloadMap.Object.Schema

/-!
Reading cluster objects. What is missing or null is left at its default, and what is there must be
of its type. DeploymentConfigs are records; all other objects are plain.
-/
namespace WorkloadMap

open Json (Members)

def OwnerReference.decode? (v : Json) : Option OwnerReference := do
  let ms ← v.members?
  if !Schema.admits Schema.owner ms then none
  let kind ← Members.getOr ms "kind" Json.text?
  let name ← Members.getOr ms "name" Json.text?
  let controls ← Members.getOr ms "controller" Json.bool?
  some { kind, name, controls }

def Meta.decode? (v : Json) : Option Meta := do
  let ms ← v.members?
  if !Schema.admits Schema.metadata ms then none
  let name ← Members.optional ms "name" Json.text?
  let generateName ← Members.optional ms "generateName" Json.text?
  let ns ← Members.optional ms "namespace" Json.text?
  let labels ← Members.getOr ms "labels" Json.names?
  let annotations ← Members.getOr ms "annotations" Json.names?
  let owners ← Members.getOr ms "ownerReferences" (Json.list? OwnerReference.decode?)
  let createdAt ← Members.optional ms "creationTimestamp" fun t => t.text?.bind Instant.parse?
  let resourceVersion ← Members.optional ms "resourceVersion" Json.text?
  some { name, generateName, ns, labels, annotations, owners, createdAt, resourceVersion }

private def metadata? (ms : Members) : Option Meta :=
  Members.getOr ms "metadata" Meta.decode?

def Container.decode? (v : Json) : Option Container := do
  let ms ← v.members?
  if !Schema.admits Schema.container ms then none
  let name ← Members.getOr ms "name" Json.text?
  let image ← Members.getOr ms "image" Json.text?
  some { name, image }

/-- The containers and the init containers that a pod's specification asks for. -/
private def podContainers? (spec : Members) : Option (List Container × List Container) := do
  if !Schema.admits Schema.podSpec spec then none
  let containers ← Members.getOr spec "containers" (Json.list? Container.decode?)
  let initContainers ← Members.getOr spec "initContainers" (Json.list? Container.decode?)
  some (containers, initContainers)

def Pod.decode? (v : Json) : Option Pod := do
  let ms ← v.members?
  if !Members.mayBe ms "v1" "Pod" then none
  let metadata ← metadata? ms
  let spec ← Members.getOr ms "spec" Json.members?
  let (containers, initContainers) ← podContainers? spec
  let status ← Members.getOr ms "status" Json.members?
  if !Schema.admits Schema.podStatus status then none
  let phase ← Members.optional status "phase" Json.text?
  some { metadata, containers, initContainers, phase }

def Service.decode? (v : Json) : Option Service := do
  let ms ← v.members?
  if !Members.mayBe ms "v1" "Service" then none
  let metadata ← metadata? ms
  let spec ← Members.getOr ms "spec" Json.members?
  if !Schema.admits Schema.serviceSpec spec then none
  let status ← Members.getOr ms "status" Json.members?
  if !Schema.admits Schema.serviceStatus status then none
  let selector ← Members.getOr spec "selector" Json.names?
  let clusterIP ← Members.optional spec "clusterIP" Json.text?
  some { metadata, selector, clusterIP }

def Namespace.decode? (v : Json) : Option Namespace := do
  let ms ← v.members?
  if !Members.mayBe ms "v1" "Namespace" then none
  let metadata ← metadata? ms
  if !(Schema.admits Schema.namespaceSpec (← Members.getOr ms "spec" Json.members?) &&
      Schema.admits Schema.namespaceStatus (← Members.getOr ms "status" Json.members?)) then none
  some { metadata }

namespace ControllerKind

def apiVersion : ControllerKind → String
  | .deployment | .replicaSet | .statefulSet | .daemonSet => "apps/v1"
  | .replicationController => "v1"
  | .deploymentConfig => "apps.openshift.io/v1"
  | .job | .cronJob => "batch/v1"

/-- The members of a specification that count. -/
def specCounters : ControllerKind → List String
  | .deployment =>
    ["replicas", "minReadySeconds", "revisionHistoryLimit", "progressDeadlineSeconds"]
  | .replicaSet | .replicationController => ["replicas", "minReadySeconds"]
  | .statefulSet => ["replicas", "minReadySeconds", "revisionHistoryLimit"]
  | .daemonSet => ["minReadySeconds", "revisionHistoryLimit"]
  | .deploymentConfig => []
  | .job =>
    ["parallelism", "completions", "backoffLimit", "backoffLimitPerIndex", "maxFailedIndexes",
      "ttlSecondsAfterFinished"]
  | .cronJob => ["successfulJobsHistoryLimit", "failedJobsHistoryLimit"]

/-- The members of a status that count. -/
def statusCounters : ControllerKind → List String
  | .deployment =>
    ["replicas", "updatedReplicas", "readyReplicas", "availableReplicas", "unavailableReplicas",
      "terminatingReplicas", "collisionCount"]
  | .replicaSet =>
    ["replicas", "fullyLabeledReplicas", "readyReplicas", "availableReplicas",
      "terminatingReplicas"]
  | .replicationController =>
    ["replicas", "fullyLabeledReplicas", "readyReplicas", "availableReplicas"]
  | .statefulSet =>
    ["replicas", "readyReplicas", "currentReplicas", "updatedReplicas", "availableReplicas",
      "collisionCount"]
  | .daemonSet =>
    ["currentNumberScheduled", "numberMisscheduled", "desiredNumberScheduled", "numberReady",
      "updatedNumberScheduled", "numberAvailable", "numberUnavailable", "collisionCount"]
  | .deploymentConfig => []
  | .job => ["active", "succeeded", "failed", "ready", "terminating"]
  | .cronJob => []

end ControllerKind

private def counters? (ms : Members) (names : List String) : Option (List (String × Int)) :=
  names.mapM fun name => (Members.getOr ms name Json.int32?).map (name, ·)

private def count (counters : List (String × Int)) (name : String) : Int :=
  (counters.lookup name).getD 0

/-- What a controller counts, given the counters of its specification and status and how many
objects its status lists as active. -/
def Replicas.ofCounters (k : ControllerKind) (spec status : List (String × Int)) (active : Nat) :
    Replicas :=
  match k with
  | .deployment | .deploymentConfig | .replicaSet | .replicationController =>
    ⟨count spec "replicas", count status "replicas", count status "availableReplicas"⟩
  | .statefulSet => ⟨count spec "replicas", count status "replicas", count status "readyReplicas"⟩
  | .daemonSet =>
    ⟨count status "desiredNumberScheduled", count status "currentNumberScheduled",
      count status "numberAvailable"⟩
  | .job => ⟨count spec "parallelism", count status "active", count status "succeeded"⟩
  | .cronJob => ⟨active, active, active⟩

private def template? (v : Json) : Option Labels := do
  let ms ← v.members?
  let metadata ← metadata? ms
  let _ ← podContainers? (← Members.getOr ms "spec" Json.members?)
  some metadata.labels

/-- What a specification says: the labels of its template and its counters. -/
private def controllerSpec? (k : ControllerKind) (spec : Members) :
    Option (Labels × List (String × Int)) := do
  if !Schema.admits (Schema.controllerSpec k) spec then none
  let labels ← Members.getOr spec "template" template?
  let counters ← counters? spec k.specCounters
  some (labels, counters)

/-- A CronJob stamps Jobs, whose template is that of their pods. -/
private def jobTemplate? (v : Json) : Option Labels := do
  let ms ← v.members?
  let _ ← metadata? ms
  let (labels, _) ← controllerSpec? .job (← Members.getOr ms "spec" Json.members?)
  some labels

/-- How many objects a status lists as active. -/
private def activeCount? (status : Members) : Option Nat := do
  let active ← Members.getOr status "active" (Json.list? Json.members?)
  if active.all (Schema.admits Schema.objectReference) then some active.length else none

private def plainController? (k : ControllerKind) (v : Json) : Option Controller := do
  let ms ← v.members?
  if !Members.mayBe ms k.apiVersion k.name then none
  let metadata ← metadata? ms
  let spec ← Members.getOr ms "spec" Json.members?
  let (labels, specCounters) ← controllerSpec? k spec
  let labels ← if k = .cronJob then Members.getOr spec "jobTemplate" jobTemplate? else some labels
  let status ← Members.getOr ms "status" Json.members?
  if !Schema.admits (Schema.controllerStatus k) status then none
  let statusCounters ← counters? status k.statusCounters
  let active ← if k = .cronJob then activeCount? status else some 0
  some ⟨metadata, labels, .ofCounters k specCounters statusCounters active⟩

/-- The counters of a record all of whose fields count. -/
private def recordCounters? (fields : List String) (v : Json) : Option (List (String × Int)) := do
  let values ← (← v.allFields? fields).mapM (Json.optionalField Json.int32?)
  some (fields.zip (values.map (·.getD 0)))

private def deploymentConfigSpec? (v : Json) : Option (Labels × List (String × Int)) := do
  match ← v.allFields? ["replicas", "selector", "template"] with
  | [replicas, selector, template] =>
    let replicas ← Json.optionalField Json.int32? replicas
    let _ ← Json.optionalField Json.names? selector
    let labels ← Json.optionalField template? template
    some (labels.getD ∅, [("replicas", replicas.getD 0)])
  | _ => none

/-- The metadata and the specification must be there. -/
private def deploymentConfig? (v : Json) : Option Controller := do
  match ← v.allFields? ["metadata", "spec", "status"] with
  | [some metadata, some spec, status] =>
    let metadata ← Meta.decode? metadata
    let (labels, specCounters) ← deploymentConfigSpec? spec
    let statusCounters ← Json.optionalField
      (recordCounters? ["replicas", "availableReplicas", "readyReplicas"]) status
    some ⟨metadata, labels, .ofCounters .deploymentConfig specCounters (statusCounters.getD []) 0⟩
  | _ => none

def Controller.decode? (k : ControllerKind) (v : Json) : Option Controller :=
  if k = .deploymentConfig then deploymentConfig? v else plainController? k v

end WorkloadMap
