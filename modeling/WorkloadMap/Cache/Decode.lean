import WorkloadMap.Cache.Basic
import WorkloadMap.Object.Decode

/-!
Reading the objects that a cache holds.
-/
namespace WorkloadMap

def CachedKind.decode? : (k : CachedKind) → Json → Option k.Item
  | .pod, v => Pod.decode? v
  | .service, v => Service.decode? v
  | .deployment, v => Controller.decode? .deployment v
  | .replicaSet, v => Controller.decode? .replicaSet v
  | .statefulSet, v => Controller.decode? .statefulSet v
  | .daemonSet, v => Controller.decode? .daemonSet v

end WorkloadMap
