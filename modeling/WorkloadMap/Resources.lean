import WorkloadMap.Object.Basic

/-!
The objects fetched from one namespace for one resolution. Kinds that were not fetched are empty.
-/
namespace WorkloadMap

structure Resources where
  pods : List Pod := []
  controllers : ControllerKind → List Controller := fun _ => []

namespace Resources

def controller? (r : Resources) (k : ControllerKind) (name : String) : Option Controller :=
  Object.find? (r.controllers k) name

def pod? (r : Resources) (name : String) : Option Pod :=
  Object.find? r.pods name

/-- Whether there is an object of a kind and name; none is of a custom kind. -/
def contains (r : Resources) : Kind → String → Bool
  | .controller k, name => (r.controller? k name).isSome
  | .pod, name => (r.pod? name).isSome
  | .custom .., _ => false

end Resources

end WorkloadMap
