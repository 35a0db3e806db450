import WorkloadMap.Istio.Host
import WorkloadMap.Istio.Kind
import WorkloadMap.Json.Decode
import WorkloadMap.Selector.Basic

/-!
Istio objects, whose specification is kept as it is, and what they apply to. A part of a
specification that is missing or of another type than expected says nothing.
-/
namespace WorkloadMap

structure IstioObject where
  kind : IstioKind
  name : String
  ns : String
  spec : Json

/-- What an object is referred to by. -/
structure IstioReference where
  objectType : String
  name : String
  ns : String
deriving DecidableEq, Repr

namespace IstioObject

def reference (o : IstioObject) : IstioReference :=
  ⟨o.kind.name, o.name, o.ns⟩

/-- Where the labels stand by which a kind selects workloads. -/
def selectorPath : IstioKind → Option (List String)
  | .gateway => some ["selector"]
  | .authorizationPolicy | .peerAuthentication | .requestAuthentication =>
    some ["selector", "matchLabels"]
  | .sidecar | .envoyFilter => some ["workloadSelector", "labels"]
  | .virtualService | .destinationRule => none

def workloadSelector (o : IstioObject) : Option Selector := do
  let path ← selectorPath o.kind
  let labels ← path.foldlM (fun v step => v.get? step) o.spec
  labels.texts?.map .equalities

/-- An object without a selector, or with an empty one, applies to the whole namespace, and is
linked to no workload. -/
def selectsWorkload (o : IstioObject) (labels : Labels) : Bool :=
  match o.workloadSelector with
  | none => false
  | some s => !s.isEmpty && s.selects labels

private def elements (v : Option Json) : List Json :=
  (v.bind Json.array?).getD []

/-- The hosts to which the routes of a virtual service lead. -/
def routeDestinations (spec : Json) : List String :=
  let routes := ["http", "tcp", "tls"].flatMap fun protocol => elements (spec.get? protocol)
  let targets := routes.flatMap fun route => elements (route.get? "route")
  targets.filterMap fun target => do
    let destination ← target.get? "destination"
    let host ← destination.get? "host"
    host.text?

private theorem mem_elements_iff {v : Option Json} {x : Json} :
    x ∈ elements v ↔ ∃ xs, v = some (.array xs) ∧ x ∈ xs := by
  cases v with
  | none => simp [elements]
  | some v =>
    cases hv : v.array? with
    | none => simp [elements, hv, ← Json.array?_eq_some_iff]
    | some xs => simp [elements, hv, ← Json.array?_eq_some_iff]

theorem mem_routeDestinations_iff {spec : Json} {host : String} :
    host ∈ routeDestinations spec ↔ ∃ protocol ∈ ["http", "tcp", "tls"], ∃ routes,
      spec.get? protocol = some (.array routes) ∧ ∃ route ∈ routes, ∃ targets,
        route.get? "route" = some (.array targets) ∧ ∃ target ∈ targets, ∃ destination,
          target.get? "destination" = some destination ∧
            destination.get? "host" = some (.text host) := by
  simp only [routeDestinations, List.mem_filterMap, List.mem_flatMap, mem_elements_iff,
    Option.bind_eq_bind, Option.bind_eq_some_iff, Json.text?_eq_some_iff]
  constructor
  · rintro ⟨target, ⟨route, ⟨protocol, hprotocol, routes, hroutes, hroute⟩, targets, htargets,
      htarget⟩, destination, hdestination, _, hhost, rfl⟩
    exact ⟨protocol, hprotocol, routes, hroutes, route, hroute, targets, htargets, target, htarget,
      destination, hdestination, hhost⟩
  · rintro ⟨protocol, hprotocol, routes, hroutes, route, hroute, targets, htargets, target, htarget,
      destination, hdestination, hhost⟩
    exact ⟨target, ⟨route, ⟨protocol, hprotocol, routes, hroutes, hroute⟩, targets, htargets,
      htarget⟩, destination, hdestination, _, hhost, rfl⟩

/-- Every host a specification names for its traffic. -/
def hosts (o : IstioObject) : List String :=
  match o.kind with
  | .destinationRule => ((o.spec.get? "host").bind Json.text?).toList
  | .virtualService =>
    (elements (o.spec.get? "hosts")).filterMap Json.text? ++ routeDestinations o.spec
  | _ => []

theorem mem_hosts_iff {o : IstioObject} {host : String} : host ∈ o.hosts ↔
    o.kind = .destinationRule ∧ o.spec.get? "host" = some (.text host) ∨
      o.kind = .virtualService ∧ ((∃ hosts, o.spec.get? "hosts" = some (.array hosts) ∧
        .text host ∈ hosts) ∨ host ∈ routeDestinations o.spec) := by
  unfold hosts
  cases o.kind
  case destinationRule => simp [Option.bind_eq_some_iff, Json.text?_eq_some_iff]
  case virtualService => simp [mem_elements_iff, Json.text?_eq_some_iff]
  all_goals simp

/-- Whether the object routes to a service or configures traffic for it. -/
def refersToService (o : IstioObject) (service ns : String) : Bool :=
  o.hosts.any fun host => Host.refersTo host service ns

end IstioObject

end WorkloadMap
