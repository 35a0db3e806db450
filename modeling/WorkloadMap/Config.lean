import WorkloadMap.Kind
import WorkloadMap.Pattern.Parser

/-!
The settings that shape a resolution. A namespace pattern is spliced into an anchored group as text,
so that it must match a name as a whole.
-/
namespace WorkloadMap

/-- Two stars alone stand for every namespace. -/
def Pattern.ofNamespaces? (text : String) : Option Pattern :=
  if text = "**" then Pattern.parse? ".*" else Pattern.parse? ("^(?:" ++ text ++ ")$")

structure Config where
  /-- Kinds that are never fetched. -/
  excluded : List Kind := []
  /-- The namespaces that may be read, if not all of them. -/
  accessible : Option (List Pattern) := none
  /-- The namespaces that may be served from the cache. -/
  cached : List Pattern := []
  appLabel : String := "app"
  versionLabel : String := "version"
  sidecarKey : String := "sidecar.istio.io/status"
  /-- The milliseconds that one batch of fetches may take. -/
  limit : Nat := 30000

namespace Config

/-- Owners cannot be told without these kinds. -/
def essential : List Kind :=
  [.controller .deployment, .controller .replicaSet, .pod]

def includes (c : Config) (kind : Kind) : Bool :=
  kind ∈ essential || kind ∉ c.excluded

def isAccessible (c : Config) (ns : String) : Bool :=
  match c.accessible with
  | none => true
  | some patterns => patterns.any (·.isMatch ns)

end Config

end WorkloadMap
