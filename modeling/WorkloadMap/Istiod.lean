import WorkloadMap.Json.Parser
import WorkloadMap.Proxy
import WorkloadMap.Source

/-!
The sync states that istiod reports, of all proxies at once. What it said last is kept for a while
and shared by the look-ups made in that time; a failed read leaves it as it is.
-/
namespace WorkloadMap

/-- The sync states by the identity of their proxies, as of the clock's milliseconds. -/
structure Snapshot where
  taken : Nat
  states : NameMap SyncStatus

namespace Snapshot

/-- Of several states of one proxy the last counts. -/
def states? (text : String) : Option (NameMap SyncStatus) := do
  let states ← Json.list? SyncStatus.decode? (← Json.parse? text)
  some (NameMap.ofList (states.map fun s => (s.proxy, s)))

def isFresh (s : Snapshot) (ttl clock : Nat) : Bool := clock - s.taken < ttl

/-- A proxy is known by its pod and the namespace of that. -/
def state? (s : Snapshot) (ns pod : String) : Option SyncStatus :=
  s.states.find? (pod ++ "." ++ ns)

end Snapshot

/-- How a look-up left the clock and what is held, and whether istiod was asked. -/
structure SnapshotRead where
  asked : Bool
  clock : Nat
  held : Option Snapshot
  result : Except Failure Snapshot

/-- The snapshot in force: the one that is held while it is fresh, else the one istiod would answer
with now, which is taken when the answer is there. -/
def SnapshotRead.at (ttl clock : Nat) (held : Option Snapshot) (answer : Outcome String) :
    SnapshotRead :=
  match held.filter (·.isFresh ttl clock) with
  | some s => ⟨false, clock, held, .ok s⟩
  | none =>
    let clock := clock + answer.arrival.elapsed
    match answer.result with
    | .error e => ⟨true, clock, held, .error e⟩
    | .ok text =>
      match Snapshot.states? text with
      | none => ⟨true, clock, held, .error .syncUndecodable⟩
      | some states => ⟨true, clock, some ⟨clock, states⟩, .ok ⟨clock, states⟩⟩

end WorkloadMap
