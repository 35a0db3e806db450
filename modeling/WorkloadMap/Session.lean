import WorkloadMap.Cache.Source
import WorkloadMap.Cluster.Client
import WorkloadMap.Resolver.Operation

/-!
A session with a cluster: the settings, the link to the server, the cache, and what one operation
leaves behind for the next.
-/
namespace WorkloadMap

structure Session where
  config : Config
  link : Client.Link
  istiod : IstiodAddress := {}
  ttl : Nat := 5000
  openshift : Bool
  cache : Cache
  /-- Whether reads are answered from the cache at all. -/
  usesCache : Bool
  clock : Nat := 0
  held : Option Snapshot := none

/-- What a run came to, and the requests that the server saw. -/
structure Ran (α : Type) where
  requests : List Request
  result : Except Failure α

namespace Session

/-- What the cluster can do is found out once. -/
def start (config : Config) (link : Client.Link) (istiod : IstiodAddress) (ttl : Nat)
    (usesCache : Bool) : Session where
  config := config
  link := link
  istiod := istiod
  ttl := ttl
  openshift := Client.servesDeploymentConfigs link
  cache := { patterns := config.cached }
  usesCache := usesCache

/-- The requests that a start makes. -/
def startRequests (link : Client.Link) : List Request :=
  if link.isSome then [.probe] else []

def source (s : Session) : Source :=
  let live := Source.live s.link s.istiod s.openshift
  if s.usesCache then live.throughCache s.cache else live

def resolver (s : Session) : Resolver := ⟨s.config, s.source, s.ttl⟩

def run (s : Session) (x : Resolver → Run α) : Ran α × Session :=
  let (result, p) := x s.resolver { clock := s.clock, held := s.held }
  let requests := p.calls.filterMap fun c => (s.source.outcome c).request
  (⟨requests, result⟩, { s with clock := p.clock, held := p.held })

def write (s : Session) (w : Cache.Write) : Session :=
  { s with cache := s.cache.write w }

end Session

end WorkloadMap
