import WorkloadMap.Cache.Basic
import WorkloadMap.Source

/-!
A source that answers from the cache what the cache holds of the namespaces it serves, and hands on
everything else.
-/
namespace WorkloadMap

namespace Cache

/-- The controllers of a kind, if it is one that is held. -/
def controllers? (c : Cache) (ns : String) : ControllerKind → Option (List Controller)
  | .deployment => some (c.listing .deployment ns)
  | .replicaSet => some (c.listing .replicaSet ns)
  | .statefulSet => some (c.listing .statefulSet ns)
  | .daemonSet => some (c.listing .daemonSet ns)
  | .deploymentConfig | .replicationController | .job | .cronJob => none

/-- What the cache says to a call in a namespace that it serves. The selector is read here, as no
server sees it. -/
def answer? (c : Cache) : (call : Call) → Option (Except Failure call.Answer)
  | .pods ns selector =>
    match Selector.parse (selector.getD "") with
    | .ok s => some (.ok (c.pods ns s))
    | .error e => some (.error (.selector selector e))
  | .controllers k ns => (c.controllers? ns k).map .ok
  | .controller k ns name =>
    (c.controllers? ns k).map fun held => .ok (held.find? fun o => Object.anyName o == name)
  | .services ns => some (.ok (c.listing .service ns))
  | .namespaceInfo _ | .pod .. | .istioObjects .. | .patch .. | .syncText => none

end Cache

def Source.throughCache (live : Source) (cache : Cache) : Source where
  openshift := live.openshift
  outcome call :=
    let served := call.ns?.any cache.serves
    match if served then cache.answer? call else none with
    | some result => { result }
    | none => live.outcome call

end WorkloadMap
