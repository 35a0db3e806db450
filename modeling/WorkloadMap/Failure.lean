import WorkloadMap.Cluster.Reply
import WorkloadMap.Duration
import WorkloadMap.Selector.Parser

/-!
Why an operation gives no answer.
-/
namespace WorkloadMap

/-- Why a request gives no answer. -/
inductive RequestError where
  | api (e : ApiError)
  | undecodable
  /-- The name of what is asked for is empty. -/
  | noName
  /-- A name cannot be put into an address. -/
  | badAddress
  | unreachable
deriving DecidableEq, Repr

def RequestError.message : RequestError → String
  | .api e => e.render
  | .undecodable => "Error deserializing response"
  | .noName => "Failed to build request: failed to validate request: A non-empty name is required"
  | .badAddress => "Failed to build request: failed to build request: invalid uri character"
  | .unreachable => "ServiceError: client error (Connect)"

inductive Failure where
  | notAccessible (ns : String)
  | notFound (kind name : String)
  /-- A batch took longer than the milliseconds it may. -/
  | timeout (limit : Nat)
  /-- The text of a label selector is at fault, told before any request is made. -/
  | selector (text : Option String) (cause : Selector.Error)
  | request (cause : RequestError)
  | syncAddress
  | syncUnavailable (cause : RequestError)
  | syncUndecodable
deriving DecidableEq, Repr

namespace Failure

private def quoteOption : Option String → String
  | none => "None"
  | some text => "Some(" ++ Text.quote text ++ ")"

def message : Failure → String
  | .notAccessible ns => "namespace " ++ ns ++ " is not accessible"
  | .notFound kind name => kind ++ " " ++ name ++ " not found"
  | .timeout limit => "resources were not fetched within " ++ Duration.render limit
  | .selector text _ => "invalid label selector " ++ quoteOption text
  | .request cause => cause.message
  | .syncAddress => "invalid syncz request"
  | .syncUnavailable _ => "failed to fetch istiod sync status"
  | .syncUndecodable => "failed to decode istiod sync status"

def isNotFound : Failure → Bool
  | .notFound .. => true
  | _ => false

end Failure

end WorkloadMap
