import WorkloadMap.Resources
import WorkloadMap.Selector.Parser

/-!
The index of a namespace: each name under which pods are reported, with the one kind it stands for.
It is filled from the pods' owners, walked one hop up from children to their owners, and completed
by the controllers that own no pods.
-/
namespace WorkloadMap

abbrev Index := NameMap Kind

namespace Index

/-- The stronger of two claims to one name stays. -/
def claim (index : Index) (name : String) (kind : Kind) : Index :=
  index.update name fun
    | none => kind
    | some held => held.stronger kind

def claimAll (index : Index) (owners : List OwnerReference) : Index :=
  owners.foldl (fun index o => index.claim o.name (Kind.ofName o.kind)) index

/-- A pod without owners is its own, unless the name is taken. -/
def addPod (index : Index) (pod : Pod) : Index :=
  if pod.metadata.isOwned then index.claimAll pod.metadata.controllers
  else index.insertIfAbsent (Object.anyName pod) .pod

def ofPods (pods : List Pod) : Index :=
  pods.foldl addPod ∅

/-- The kinds whose objects a user manages through an owner. -/
def childKinds : List ControllerKind :=
  [.replicaSet, .replicationController, .job]

/-- The owners that manage the object of an entry, if it is a child and was fetched. -/
def ownersOf (r : Resources) (name : String) : Kind → List OwnerReference
  | .controller k =>
    if k ∈ childKinds then
      match r.controller? k name with
      | some c => c.metadata.controllers
      | none => []
    else []
  | _ => []

/-- A Job may outlive the CronJob that owns it; then nothing else will claim its pods. -/
def isLeftBehind (r : Resources) (kind : Kind) (owner : OwnerReference) : Bool :=
  kind == .controller .job && Kind.ofName owner.kind == .controller .cronJob &&
    (r.controller? .cronJob owner.name).isNone

/-- Each child with one of its owners. -/
def hops (index : Index) (r : Resources) : List (String × Kind × OwnerReference) :=
  index.entries.flatMap fun (name, kind) => (ownersOf r name kind).map fun o => (name, kind, o)

/-- The children go first, all as of the index at the start; then their owners come in. -/
def replaceChildren (index : Index) (r : Resources) : Index :=
  let hops := index.hops r
  let replaced := (hops.filter fun (_, kind, owner) => !isLeftBehind r kind owner).map (·.1)
  claimAll (replaced.foldl NameMap.erase index) (hops.map fun (_, _, owner) => owner)

/-- The kinds that are reported without pods, in the order in which they claim names. -/
def orphanKinds : List ControllerKind :=
  [.deployment, .replicaSet, .deploymentConfig, .replicationController, .statefulSet, .daemonSet]

/-- ReplicaSets and ReplicationControllers are reported on their own only if nothing owns them. -/
def standsAlone (k : ControllerKind) (c : Controller) : Bool :=
  (k != .replicaSet && k != .replicationController) || !c.metadata.isOwned

/-- A selector text that is missing or at fault selects everything. -/
def templateSelected (selector : Option String) (c : Controller) : Bool :=
  match selector.map Selector.parse with
  | some (.ok s) => s.selects c.template
  | _ => true

/-- The names that may be added, with their kinds. -/
def orphans (r : Resources) (selector : Option String) : List (String × Kind) :=
  orphanKinds.flatMap fun k =>
    ((r.controllers k).filter fun c => standsAlone k c && templateSelected selector c).map fun c =>
      (Object.anyName c, .controller k)

def completeOrphans (index : Index) (r : Resources) (selector : Option String) : Index :=
  (orphans r selector).foldl (fun index (name, kind) => index.insertIfAbsent name kind) index

end Index

/-- The selector, if any, was that of the fetched pods; controllers without pods are held to it too.
-/
def Resources.resolve (r : Resources) (selector : Option String) : Index :=
  let held := (Index.ofPods r.pods).replaceChildren r
  held.completeOrphans r selector

end WorkloadMap
