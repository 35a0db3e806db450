import WorkloadMap.Instant
import WorkloadMap.Json.Decode
import WorkloadMap.Json.Printer
import WorkloadMap.Kind

/-!
The types of the members that no workload is told from. An object that breaks them is refused all
the same. The schemas do not cover every member of these objects: one that is in no schema may be of
any type.
-/
namespace WorkloadMap

abbrev Schema := Json → Bool

namespace Schema

def text : Schema := fun v => v.text?.isSome

def bool : Schema := fun v => v.bool?.isSome

def int32 : Schema := fun v => v.int32?.isSome

def int64 : Schema := fun v => v.int64?.isSome

def instant : Schema := fun v => (v.text?.bind Instant.parse?).isSome

/-- A count or a share, such as `25%`. -/
def intOrText : Schema := fun v => int32 v || text v

def list (element : Schema) : Schema := fun v => (v.array?).any (·.all element)

/-- Anything that can be kept as it is. -/
def kept : Schema := fun v => v.canonical?.isSome

def names : Schema := fun v => v.names?.isSome

/-- Every member that is named must be of its type, or null. -/
def admits (fields : List (String × Schema)) (ms : Json.Members) : Bool :=
  ms.all fun (name, v) =>
    match fields.lookup name with
    | none => true
    | some schema => v.isNull || schema v

def object (fields : List (String × Schema)) : Schema := fun v => v.members?.any (admits fields)

private def texts (fields : List String) : List (String × Schema) := fields.map (·, text)

private def bools (fields : List String) : List (String × Schema) := fields.map (·, bool)

private def int32s (fields : List String) : List (String × Schema) := fields.map (·, int32)

private def int64s (fields : List String) : List (String × Schema) := fields.map (·, int64)

private def instants (fields : List String) : List (String × Schema) := fields.map (·, instant)

/-! Metadata. -/

def owner : List (String × Schema) :=
  texts ["apiVersion", "uid"] ++ bools ["blockOwnerDeletion"]

private def managedFields : Schema :=
  object <| texts ["apiVersion", "fieldsType", "manager", "operation", "subresource"] ++
    instants ["time"] ++ [("fieldsV1", kept)]

def metadata : List (String × Schema) :=
  int64s ["deletionGracePeriodSeconds", "generation"] ++ instants ["deletionTimestamp"] ++
    texts ["selfLink", "uid"] ++ [("finalizers", list text), ("managedFields", list managedFields)]

/-! Specifications. -/

private def labelSelector : Schema :=
  object [
    ("matchExpressions", list <| object <| texts ["key", "operator"] ++ [("values", list text)]),
    ("matchLabels", names)]

private def rollout (counts : List (String × Schema)) : Schema :=
  object [("type", text), ("rollingUpdate", object (("maxUnavailable", intOrText) :: counts))]

private def containerPort : Schema :=
  object <| texts ["hostIP", "name", "protocol"] ++ int32s ["containerPort", "hostPort"]

private def volumeMount : Schema :=
  object <| texts ["mountPath", "mountPropagation", "name", "recursiveReadOnly", "subPath",
    "subPathExpr"] ++ bools ["readOnly"]

def container : List (String × Schema) :=
  texts ["imagePullPolicy", "restartPolicy", "terminationMessagePath", "terminationMessagePolicy",
    "workingDir"] ++
  bools ["stdin", "stdinOnce", "tty"] ++
  [("args", list text), ("command", list text), ("ports", list containerPort),
    ("env", list <| object <| texts ["name", "value"]),
    ("resources", object [("limits", names), ("requests", names)]),
    ("volumeDevices", list <| object <| texts ["devicePath", "name"]),
    ("volumeMounts", list volumeMount)]

def podSpec : List (String × Schema) :=
  texts ["dnsPolicy", "hostname", "nodeName", "preemptionPolicy", "priorityClassName",
    "restartPolicy", "runtimeClassName", "schedulerName", "serviceAccount",
    "serviceAccountName", "subdomain"] ++
  bools ["automountServiceAccountToken", "enableServiceLinks", "hostIPC", "hostNetwork", "hostPID",
    "hostUsers", "setHostnameAsFQDN", "shareProcessNamespace"] ++
  int32s ["priority"] ++ int64s ["activeDeadlineSeconds", "terminationGracePeriodSeconds"] ++
  [("nodeSelector", names), ("overhead", names),
    ("imagePullSecrets", list <| object <| texts ["name"]),
    ("schedulingGates", list <| object <| texts ["name"]),
    ("readinessGates", list <| object <| texts ["conditionType"]),
    ("hostAliases", list <| object <| texts ["ip"] ++ [("hostnames", list text)]),
    ("tolerations", list <| object <|
      texts ["effect", "key", "operator", "value"] ++ int64s ["tolerationSeconds"])]

private def servicePort : Schema :=
  object <| texts ["appProtocol", "name", "protocol"] ++ int32s ["nodePort", "port"] ++
    [("targetPort", intOrText)]

def serviceSpec : List (String × Schema) :=
  texts ["externalName", "externalTrafficPolicy", "internalTrafficPolicy", "ipFamilyPolicy",
    "loadBalancerClass", "loadBalancerIP", "sessionAffinity", "trafficDistribution"] ++
  bools ["allocateLoadBalancerNodePorts", "publishNotReadyAddresses"] ++
  int32s ["healthCheckNodePort"] ++
  ["clusterIPs", "externalIPs", "ipFamilies", "loadBalancerSourceRanges"].map (·, list text) ++
  [("ports", list servicePort),
    ("sessionAffinityConfig", object [("clientIP", object <| int32s ["timeoutSeconds"])])]

def controllerSpec : ControllerKind → List (String × Schema)
  | .deployment =>
    [("paused", bool), ("selector", labelSelector), ("strategy", rollout [("maxSurge", intOrText)])]
  | .replicaSet => [("selector", labelSelector)]
  | .replicationController | .deploymentConfig => [("selector", names)]
  | .statefulSet =>
    texts ["podManagementPolicy", "serviceName"] ++
    [("selector", labelSelector), ("updateStrategy", rollout (int32s ["partition"])),
      ("ordinals", object <| int32s ["start"]),
      ("persistentVolumeClaimRetentionPolicy", object <| texts ["whenDeleted", "whenScaled"])]
  | .daemonSet =>
    [("selector", labelSelector), ("updateStrategy", rollout [("maxSurge", intOrText)])]
  | .job =>
    texts ["completionMode", "managedBy", "podReplacementPolicy"] ++
    bools ["manualSelector", "suspend"] ++
    int64s ["activeDeadlineSeconds"] ++
    [("selector", labelSelector),
      ("successPolicy", object [
        ("rules", list <| object <| int32s ["succeededCount"] ++ texts ["succeededIndexes"])]),
      ("podFailurePolicy", object [("rules", list <| object <|
        texts ["action"] ++
        [("onExitCodes", object <| texts ["containerName", "operator"] ++ [("values", list int32)]),
          ("onPodConditions", list <| object <| texts ["status", "type"])])])]
  | .cronJob =>
    texts ["concurrencyPolicy", "schedule", "timeZone"] ++ bools ["suspend"] ++
    int64s ["startingDeadlineSeconds"]

/-! Statuses. -/

private def condition (more : List (String × Schema)) : Schema :=
  object <| texts ["message", "reason", "status", "type"] ++ instants ["lastTransitionTime"] ++ more

private def containerStatus : Schema :=
  object <| texts ["containerID", "image", "imageID", "name"] ++ bools ["ready", "started"] ++
    int32s ["restartCount"]

def podStatus : List (String × Schema) :=
  texts ["hostIP", "message", "nominatedNodeName", "podIP", "qosClass", "reason", "resize"] ++
  instants ["startTime"] ++ int64s ["observedGeneration"] ++
  [("conditions", list <| condition <| instants ["lastProbeTime"] ++ int64s ["observedGeneration"]),
    ("podIPs", list <| object <| texts ["ip"]),
    ("hostIPs", list <| object <| texts ["ip"]),
    ("containerStatuses", list containerStatus), ("initContainerStatuses", list containerStatus),
    ("ephemeralContainerStatuses", list containerStatus)]

def serviceStatus : List (String × Schema) :=
  [("conditions", list <| condition <| int64s ["observedGeneration"]),
    ("loadBalancer", object [
      ("ingress", list <| object <| texts ["hostname", "ip", "ipMode"] ++
        [("ports", list <| object <| texts ["error", "protocol"] ++ int32s ["port"])])])]

def namespaceSpec : List (String × Schema) := [("finalizers", list text)]

def namespaceStatus : List (String × Schema) :=
  [("conditions", list <| condition []), ("phase", text)]

/-- The object that a status points to. -/
def objectReference : List (String × Schema) :=
  texts ["apiVersion", "fieldPath", "kind", "name", "namespace", "resourceVersion", "uid"]

def controllerStatus : ControllerKind → List (String × Schema)
  | .deployment =>
    int64s ["observedGeneration"] ++
    [("conditions", list <| condition <| instants ["lastUpdateTime"])]
  | .replicaSet | .replicationController | .daemonSet =>
    int64s ["observedGeneration"] ++ [("conditions", list <| condition [])]
  | .statefulSet =>
    int64s ["observedGeneration"] ++ texts ["currentRevision", "updateRevision"] ++
    [("conditions", list <| condition [])]
  | .deploymentConfig => []
  | .job =>
    texts ["completedIndexes", "failedIndexes"] ++ instants ["completionTime", "startTime"] ++
    [("conditions", list <| condition <| instants ["lastProbeTime"]),
      ("uncountedTerminatedPods", object [("failed", list text), ("succeeded", list text)])]
  | .cronJob => instants ["lastScheduleTime", "lastSuccessfulTime"]

end Schema

end WorkloadMap
