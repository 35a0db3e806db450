import WorkloadMap.Cluster.Server
import WorkloadMap.Object.Schema
import WorkloadMap.Source

/-!
A source that asks the API server. A name that cannot be put into an address fails its call before
any request is made.
-/
namespace WorkloadMap

/-- Where istiod is reached. -/
structure IstiodAddress where
  ns : String := "istio-system"
  service : String := "istiod"
  port : Nat := 15014

namespace Client

/-- Bytes beyond ASCII are left to the server. -/
def isAddressChar (c : Char) : Bool :=
  ' ' < c && c != '<' && c != '>' && c != '\x60' && c != '\x7f'

def isAddress (s : String) : Bool := s.toList.all isAddressChar

/-- A server, unless none is there. -/
abbrev Link := Option Server

/-- Sends a request and reads the body of its reply. -/
def exchange (link : Link) (r : Request) (read : Body → Except RequestError α) :
    Option Request × Arrival × Except RequestError α :=
  match link with
  | none => (none, .now, .error .unreachable)
  | some server =>
    let result := match (server.reply r).body? with
      | .ok body => read body
      | .error e => .error (.api e)
    (some r, .after (server.delay r), result)

/-- An outcome in which no request was made. -/
def refused (e : Failure) : Outcome α := { result := .error e }

def failed (e : RequestError) : Except Failure α := .error (.request e)

/-- An outcome of a request, of whose errors some may stand for an answer. -/
def outcome (link : Link) (r : Request) (read : Json → Option α)
    (recover : RequestError → Except Failure α) : Outcome α :=
  let readBody (body : Body) : Except RequestError α :=
    match body.json?.bind read with
    | some a => .ok a
    | none => .error .undecodable
  let (request, arrival, result) := exchange link r readBody
  { request, arrival, result := match result with
      | .ok a => .ok a
      | .error e => recover e }

/-- Members that are not told apart by name are kept before they are passed over, and so must be
such as can be kept, at so many levels below the whole. -/
def keepsOthers (known : List String) (levels : Nat) (v : Json) : Option Unit := do
  let ms ← v.members?
  let others := ms.filter fun (name, _) => name ∉ known
  guard (others.all fun (_, v) => (v.canonicalWithin? (Json.maxDepth - levels)).isSome)

/-- What a listing tells of itself beside its objects. -/
def listMeta : Schema :=
  Schema.object [("continue", Schema.text), ("remainingItemCount", Schema.int64),
    ("resourceVersion", Schema.text), ("selfLink", Schema.text)]

/-- The items of a listing. They must be there, if only as null. -/
def items? (read : Json → Option α) (v : Json) : Option (List α) := do
  keepsOthers ["metadata", "items"] 1 v
  match ← v.fields? ["metadata", "items"] with
  | [metadata, some items] =>
    if !metadata.all listMeta then none
    (Json.orNull (Json.list? read) items).map (·.getD [])
  | _ => none

def list (link : Link) (e : Endpoint) (ns : String) (selector : Option String)
    (read : Json → Option α) : Outcome (List α) :=
  if !isAddress ns then refused (.request .badAddress)
  else outcome link (.list e ns selector) (items? read) failed

/-- Whether an object is missing is told by the reason of the error, not by its code. -/
def get (link : Link) (e : Endpoint) (ns : Option String) (name : String) (read : Json → Option α) :
    Outcome (Option α) :=
  if name = "" then refused (.request .noName)
  else if !(isAddress (ns.getD "") && isAddress name) then refused (.request .badAddress)
  else outcome link (.get e ns name) (fun v => (read v).map some) fun
    | .api e => if e.isNotFound then .ok none else failed (.api e)
    | e => failed e

/-- The object is missing if the error has its code, whatever the reason. -/
def patch (link : Link) (e : Endpoint) (kind ns name : String) (body : Json)
    (read : Json → Option α) : Outcome Unit :=
  if name = "" then refused (.request .noName)
  else if !(isAddress ns && isAddress name) then refused (.request .badAddress)
  else outcome link (.patch e ns name body) (fun v => (read v).map fun _ => ()) fun
    | .api e => if e.code = 404 then .error (.notFound kind name) else failed (.api e)
    | e => failed e

/-- An object without a namespace is in the one that was asked for. -/
def istioObject? (k : IstioKind) (ns : String) (v : Json) : Option IstioObject := do
  keepsOthers ["metadata"] 3 v
  match ← v.fields? ["metadata"] with
  | [metadata] =>
    let metadata ← match metadata with
      | none => some {}
      | some v => Meta.decode? v
    some
      { kind := k, name := metadata.anyName, ns := metadata.ns.getD ns
        spec := (v.get? "spec").getD .null }
  | _ => none

/-- Where Istio is not installed there are no objects of it. -/
def istioObjects (link : Link) (k : IstioKind) (ns : String) : Outcome (List IstioObject) :=
  if !isAddress ns then refused (.request .badAddress)
  else outcome link (.list k.endpoint ns none) (items? (istioObject? k ns)) fun
    | .api e => if e.code = 404 then .ok [] else failed (.api e)
    | e => failed e

def syncText (link : Link) (istiod : IstiodAddress) : Outcome String :=
  if !(isAddress istiod.ns && isAddress istiod.service) then refused .syncAddress
  else
    let (request, arrival, result) :=
      exchange link (.sync istiod.ns istiod.service istiod.port) fun body => .ok body.toText
    { request, arrival, result := result.mapError .syncUnavailable }

/-- What a group tells of one of its kinds. -/
def groupKind : Schema :=
  Schema.object <|
    ["group", "kind", "name", "singularName", "storageVersionHash", "version"].map
      (·, Schema.text) ++
    ["categories", "shortNames", "verbs"].map (·, Schema.list Schema.text) ++
    [("namespaced", Schema.bool)]

/-- The kinds of a group. -/
def groupKinds? (v : Json) : Option (List String) := do
  let ms ← v.members?
  guard (Json.Members.mayBe ms "v1" "APIResourceList")
  guard (Schema.admits [("groupVersion", Schema.text), ("resources", Schema.list groupKind)] ms)
  let resources ← Json.Members.getOr ms "resources" (Json.list? Json.members?)
  resources.mapM fun ms => Json.Members.getOr ms "kind" Json.text?

/-- Whether the server answers the probe with a group that has DeploymentConfigs. -/
def servesDeploymentConfigs (link : Link) : Bool :=
  match (outcome link .probe groupKinds? failed).result with
  | .ok kinds => kinds.contains (ControllerKind.name .deploymentConfig)
  | .error _ => false

end Client

/-- A source over a link. Which kinds the server has was found out when the link was made. -/
def Source.live (link : Client.Link) (istiod : IstiodAddress) (openshift : Bool) : Source where
  openshift := openshift
  outcome
    | .namespaceInfo ns => Client.get link .namespaces none ns Namespace.decode?
    | .pods ns selector =>
      Client.list link .pods ns (selector.filter (· != "")) Pod.decode?
    | .pod ns name => Client.get link .pods (some ns) name Pod.decode?
    | .controllers k ns => Client.list link k.endpoint ns none (Controller.decode? k)
    | .controller k ns name => Client.get link k.endpoint (some ns) name (Controller.decode? k)
    | .services ns => Client.list link .services ns none Service.decode?
    | .istioObjects k ns => Client.istioObjects link k ns
    | .patch kind ns name body =>
      match kind with
      | .controller k => Client.patch link k.endpoint k.name ns name body (Controller.decode? k)
      | .pod => Client.patch link .pods "Pod" ns name body Pod.decode?
      | .custom unknown _ => Client.refused (.notFound unknown name)
    | .syncText => Client.syncText link istiod

end WorkloadMap
