import WorkloadMap.Batch
import WorkloadMap.Config
import WorkloadMap.Istiod

/-!
The runs of a resolver. A run makes calls, takes time and may fail. Every operation begins with the
read of its namespace, and makes no call at all if that is not accessible.
-/
namespace WorkloadMap

/-- What runs leave behind: the calls so far, the first one first, the clock in milliseconds, and
what istiod said last. -/
structure Progress where
  calls : List Call := []
  clock : Nat := 0
  held : Option Snapshot := none

abbrev Run (α : Type) := ExceptT Failure (StateM Progress) α

structure Resolver where
  config : Config
  source : Source
  /-- For how many milliseconds the sync states are shared. -/
  ttl : Nat := 5000

namespace Run

/-- Waits for a batch, however long it takes. -/
def wait (b : Batch α) : Run α := fun p =>
  (b.result, { p with calls := p.calls ++ b.calls, clock := p.clock + b.arrival.elapsed })

/-- Waits for a batch until its time is over. -/
def waitWithin (limit : Nat) (b : Batch α) : Run α := fun p =>
  if b.arrival.isWithin limit then wait b p
  else
    (.error (.timeout limit), { p with calls := p.calls ++ b.calls, clock := p.clock + limit })

end Run

namespace Resolver

variable (r : Resolver)

def call (c : Call) : Batch c.Answer := .ofCall r.source c

/-- A batch may take as long as the settings say. -/
def fetch (b : Batch α) : Run α := .waitWithin r.config.limit b

/-- The read of the namespace takes the time it takes. -/
def namespaceInfo (ns : String) : Run NamespaceInfo := do
  if !r.config.isAccessible ns then throw (.notAccessible ns)
  match ← Run.wait (r.call (.namespaceInfo ns)) with
  | (none : Option Namespace) => throw (.notFound "Namespace" ns)
  | some n => return n.info

/-- The sync state of a pod's proxy. -/
def syncStatus (ns pod : String) : Run (Option SyncStatus) := fun p =>
  let read := SnapshotRead.at r.ttl p.clock p.held (r.source.outcome .syncText)
  let calls := if read.asked then p.calls ++ [.syncText] else p.calls
  (read.result.map (·.state? ns pod), { calls, clock := read.clock, held := read.held })

end Resolver

end WorkloadMap
