import WorkloadMap.Instant
import WorkloadMap.Kind
import WorkloadMap.Selector.Basic

/-!
The objects of a cluster, as far as workloads are told from them. All eight kinds of controller have
one shape: who owns them, the labels they stamp on their pods, and how many pods they count.
-/
namespace WorkloadMap

structure OwnerReference where
  kind : String
  name : String
  controls : Bool
deriving DecidableEq, Repr, Inhabited

structure Meta where
  name : Option String := none
  generateName : Option String := none
  ns : Option String := none
  labels : Labels := ∅
  annotations : NameMap String := ∅
  owners : List OwnerReference := []
  createdAt : Option Instant := none
  resourceVersion : Option String := none
deriving DecidableEq, Inhabited

namespace Meta

/-- A name is looked for at two places, of which the first counts even where it holds no text. -/
def anyName (m : Meta) : String :=
  (m.name <|> m.generateName).getD ""

/-- The owners that manage the object; others only keep it alive. -/
def controllers (m : Meta) : List OwnerReference :=
  m.owners.filter (·.controls)

def isOwned (m : Meta) : Bool :=
  !m.owners.isEmpty

end Meta

/-- What has metadata, and so may be found by name. -/
class Object (α : Type) where
  metadata : α → Meta

namespace Object

variable {α : Type} [Object α]

def anyName (o : α) : String := (metadata o).anyName

/-- Only the name proper counts when an object is looked for. -/
def find? (objects : List α) (name : String) : Option α :=
  objects.find? fun o => (metadata o).name == some name

/-- How an object is told from its earlier states. -/
def label (o : α) : String :=
  match (metadata o).resourceVersion with
  | some version => anyName o ++ "@" ++ version
  | none => anyName o

end Object

structure Container where
  name : String
  image : String
deriving DecidableEq, Repr, Inhabited

structure Pod where
  metadata : Meta
  containers : List Container := []
  initContainers : List Container := []
  phase : Option String := none
deriving DecidableEq, Inhabited

structure Replicas where
  desired : Int := 0
  current : Int := 0
  available : Int := 0
deriving DecidableEq, Repr, Inhabited

structure Controller where
  metadata : Meta
  template : Labels := ∅
  replicas : Replicas := {}
deriving DecidableEq, Inhabited

structure Service where
  metadata : Meta
  selector : Labels := ∅
  clusterIP : Option String := none
deriving DecidableEq, Inhabited

structure Namespace where
  metadata : Meta
deriving DecidableEq, Inhabited

/-- A namespace as its access check sees it. -/
structure NamespaceInfo where
  name : String
  labels : Labels
  createdAt : Option Instant
deriving DecidableEq

instance : Object Pod := ⟨Pod.metadata⟩
instance : Object Controller := ⟨Controller.metadata⟩
instance : Object Service := ⟨Service.metadata⟩
instance : Object Namespace := ⟨Namespace.metadata⟩

def Namespace.info (n : Namespace) : NamespaceInfo :=
  ⟨Object.anyName n, n.metadata.labels, n.metadata.createdAt⟩

end WorkloadMap
