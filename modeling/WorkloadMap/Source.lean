import WorkloadMap.Cluster.Request
import WorkloadMap.Failure
import WorkloadMap.Istio.Object

/-!
What an operation may ask for, and what comes back. A source has one outcome for each call, whoever
answers it; an operation is told from its calls and their outcomes alone.
-/
namespace WorkloadMap

inductive Call where
  | namespaceInfo (ns : String)
  | pods (ns : String) (selector : Option String)
  | pod (ns name : String)
  | controllers (k : ControllerKind) (ns : String)
  | controller (k : ControllerKind) (ns name : String)
  | services (ns : String)
  | istioObjects (k : IstioKind) (ns : String)
  | patch (kind : Kind) (ns name : String) (body : Json)
  /-- The sync states of all proxies, as text. -/
  | syncText

namespace Call

def Answer : Call → Type
  | .namespaceInfo _ => Option Namespace
  | .pods .. => List Pod
  | .pod .. => Option Pod
  | .controllers .. => List Controller
  | .controller .. => Option Controller
  | .services _ => List Service
  | .istioObjects .. => List IstioObject
  | .patch .. => Unit
  | .syncText => String

/-- The namespace a call is about; the sync states are those of all. -/
def ns? : Call → Option String
  | .namespaceInfo ns | .pods ns _ | .pod ns _ | .controllers _ ns | .controller _ ns _
  | .services ns | .istioObjects _ ns | .patch _ ns _ _ => some ns
  | .syncText => none

/-- The kind of workload that a call reads or writes. -/
def kind? : Call → Option Kind
  | .pods .. | .pod .. => some .pod
  | .controllers k _ | .controller k _ _ => some (.controller k)
  | .patch kind _ _ _ => some kind
  | .namespaceInfo _ | .services _ | .istioObjects .. | .syncText => none

end Call

/-- When an outcome is there: with the call, or some milliseconds after it. -/
inductive Arrival where
  | now
  | after (ms : Nat)
deriving DecidableEq, Repr

namespace Arrival

/-- What is there with the call precedes whatever has to be waited for. -/
def precedes : Arrival → Arrival → Bool
  | .now, .now => false
  | .now, .after _ => true
  | .after _, .now => false
  | .after a, .after b => a < b

def later (a b : Arrival) : Arrival := if a.precedes b then b else a

def elapsed : Arrival → Nat
  | .now => 0
  | .after ms => ms

def isWithin (limit : Nat) : Arrival → Bool
  | .now => true
  | .after ms => ms < limit

end Arrival

structure Outcome (α : Type) where
  /-- What the server saw of it. -/
  request : Option Request := none
  arrival : Arrival := .now
  result : Except Failure α

structure Source where
  /-- Whether DeploymentConfigs are served. -/
  openshift : Bool
  outcome : (c : Call) → Outcome c.Answer

end WorkloadMap
