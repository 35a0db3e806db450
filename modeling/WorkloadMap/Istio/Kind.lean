/-!
The Istio configuration kinds that are linked to workloads and services.
-/
namespace WorkloadMap

inductive IstioKind where
  | gateway
  | authorizationPolicy
  | peerAuthentication
  | sidecar
  | requestAuthentication
  | envoyFilter
  | virtualService
  | destinationRule
deriving DecidableEq, Repr

namespace IstioKind

/-- The kinds that select workloads by label, in the order in which they are referred to. -/
def selecting : List IstioKind :=
  [.gateway, .authorizationPolicy, .peerAuthentication, .sidecar, .requestAuthentication,
    .envoyFilter]

/-- The kinds that route to services. -/
def routing : List IstioKind := [.virtualService, .destinationRule]

def all : List IstioKind := selecting ++ routing

def name : IstioKind → String
  | .gateway => "Gateway"
  | .authorizationPolicy => "AuthorizationPolicy"
  | .peerAuthentication => "PeerAuthentication"
  | .sidecar => "Sidecar"
  | .requestAuthentication => "RequestAuthentication"
  | .envoyFilter => "EnvoyFilter"
  | .virtualService => "VirtualService"
  | .destinationRule => "DestinationRule"

theorem name_injective {a b : IstioKind} (h : a.name = b.name) : a = b := by
  cases a <;> cases b <;> first | rfl | (revert h; decide)

def ofName? (name : String) : Option IstioKind := all.find? (·.name == name)

def group : IstioKind → String
  | .authorizationPolicy | .peerAuthentication | .requestAuthentication => "security.istio.io"
  | _ => "networking.istio.io"

def version : IstioKind → String
  | .envoyFilter => "v1alpha3"
  | _ => "v1beta1"

def plural : IstioKind → String
  | .gateway => "gateways"
  | .authorizationPolicy => "authorizationpolicies"
  | .peerAuthentication => "peerauthentications"
  | .sidecar => "sidecars"
  | .requestAuthentication => "requestauthentications"
  | .envoyFilter => "envoyfilters"
  | .virtualService => "virtualservices"
  | .destinationRule => "destinationrules"

end IstioKind

end WorkloadMap
