import WorkloadMap.Json.Decode

/-!
How far a sidecar's proxy has taken up the configuration sent to it, one word for each of the four
discovery services.
-/
namespace WorkloadMap

/-- The nonces of what was last sent to a proxy and what it last acknowledged. -/
structure SyncStatus where
  proxy : String := ""
  clusterSent : String := ""
  clusterAcked : String := ""
  listenerSent : String := ""
  listenerAcked : String := ""
  routeSent : String := ""
  routeAcked : String := ""
  endpointSent : String := ""
  endpointAcked : String := ""
deriving DecidableEq, Repr, Inhabited

structure ProxyStatus where
  cds : String
  eds : String
  lds : String
  rds : String
deriving DecidableEq, Repr

namespace SyncStatus

/-- A record of texts, of which each may be missing. -/
def decode? (v : Json) : Option SyncStatus := do
  let fields ← v.fields?
    ["proxy", "cluster_sent", "cluster_acked", "listener_sent", "listener_acked", "route_sent",
      "route_acked", "endpoint_sent", "endpoint_acked"]
  let texts ← fields.mapM fun
    | none => some ""
    | some v => v.text?
  match texts with
  | [proxy, clusterSent, clusterAcked, listenerSent, listenerAcked, routeSent, routeAcked,
      endpointSent, endpointAcked] =>
    some ⟨proxy, clusterSent, clusterAcked, listenerSent, listenerAcked, routeSent, routeAcked,
      endpointSent, endpointAcked⟩
  | _ => none

def word (sent acked : String) : String :=
  if sent = "" then "NOT_SENT" else if sent = acked then "Synced" else "STALE"

def toProxyStatus (s : SyncStatus) : ProxyStatus where
  cds := word s.clusterSent s.clusterAcked
  eds := word s.endpointSent s.endpointAcked
  lds := word s.listenerSent s.listenerAcked
  rds := word s.routeSent s.routeAcked

end SyncStatus

end WorkloadMap
