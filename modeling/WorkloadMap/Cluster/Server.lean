import WorkloadMap.Cluster.Reply
import WorkloadMap.Cluster.Request
import WorkloadMap.Selector.Parser

/-!
An API server in memory. Its state is a JSON object: lists of objects under their plurals, the kinds
that the OpenShift group serves, the text of the sync states, and for requests by key how they fail
and how long their replies take.
-/
namespace WorkloadMap

structure Server where
  state : NameMap Json

namespace Server

def ofMembers (ms : List (String × Json)) : Server := ⟨NameMap.ofList ms⟩

/-- Replaces parts of the state. -/
def set (s : Server) (changes : List (String × Json)) : Server :=
  ⟨changes.foldl (fun state (name, v) => state.insert name v) s.state⟩

private def list (s : Server) (name : String) : List Json :=
  ((s.state.find? name).bind Json.array?).getD []

private def ofKey (s : Server) (table key : String) : Option Json :=
  (s.state.find? table).bind (·.get? key)

/-- The milliseconds until the reply to a request is there. -/
def delay (s : Server) (r : Request) : Nat :=
  (((s.ofKey "delay_ms" r.key).bind Json.int?).getD 0).toNat

private def textAt (v : Json) (path : List String) : Option String :=
  (path.foldlM (fun (v : Json) name => v.get? name) v).bind Json.text?

private def isIn (ns : String) (v : Json) : Bool :=
  textAt v ["metadata", "namespace"] == some ns

private def isNamed (name : String) (v : Json) : Bool :=
  textAt v ["metadata", "name"] == some name

private def labelsOf (v : Json) : Labels :=
  (((v.get? "metadata").bind (·.get? "labels")).bind Json.names?).getD ∅

/-- The reply that the state asks for in place of the proper one. -/
def failure? (s : Server) (r : Request) : Option Reply := do
  let fault ← s.ofKey "fail" r.key
  let code := (((fault.get? "code").bind Json.int?).getD 500).toNat
  match textAt fault ["body"] with
  | some body => some ⟨code, .text body⟩
  | none =>
    let reason := (textAt fault ["reason"]).getD "Failure"
    some (.ofError { code, reason, message := r.key ++ " failed" })

private def notFound (what : String) : Reply :=
  .ofError { code := 404, reason := "NotFound", message := what ++ " not found" }

private def find (objects : List Json) (name : String) : Reply :=
  match objects.find? (isNamed name) with
  | some v => { body := .value v }
  | none => notFound name

/-- Objects are listed as they are, in their order. -/
private def listReply (objects : List Json) (selector : Option String) : Reply :=
  let found (objects : List Json) : Reply :=
    { body := .value (.record [("metadata", .record []), ("items", .array objects)]) }
  match selector.map Selector.parse with
  | none => found objects
  | some (.ok s) => found (objects.filter fun v => s.selects (labelsOf v))
  | some (.error _) =>
    .ofError
      { code := 400, reason := "BadRequest", message := "unable to parse the label selector" }

private def resourceList (kinds : List Json) : Json :=
  .record [
    ("groupVersion", .text "apps.openshift.io/v1"),
    ("resources", .array (kinds.map fun kind => .record [("kind", kind)]))]

def properReply (s : Server) : Request → Reply
  | .probe =>
    match (s.state.find? "openshift").bind Json.array? with
    | none => notFound "apps.openshift.io/v1"
    | some kinds => { body := .value (resourceList kinds) }
  | .list e ns selector => listReply ((s.list e.plural).filter (isIn ns)) selector
  | .get e none name => find (s.list e.plural) name
  | .get e (some ns) name => find ((s.list e.plural).filter (isIn ns)) name
  | .patch e ns name _ => find ((s.list e.plural).filter (isIn ns)) name
  | .sync .. =>
    match (s.state.find? "syncz").bind Json.text? with
    | some text => { body := .text text }
    | none =>
      .ofError
        { code := 503, reason := "ServiceUnavailable", message := "no endpoints available" }

def reply (s : Server) (r : Request) : Reply := (s.failure? r).getD (s.properReply r)

end Server

end WorkloadMap
