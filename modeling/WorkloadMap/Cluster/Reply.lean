import WorkloadMap.Json.Decode
import WorkloadMap.Json.Parser
import WorkloadMap.Json.Printer
import WorkloadMap.Text.Numeral
import WorkloadMap.Text.Quoted

/-!
Replies of the API server and the errors they may carry.
-/
namespace WorkloadMap

/-- What the server says of a request that failed. -/
structure ApiError where
  status : String := "Failure"
  message : String
  reason : String
  code : Nat
deriving DecidableEq, Repr

namespace ApiError

def isNotFound (e : ApiError) : Bool := e.reason == "NotFound"

def toJson (e : ApiError) : Json :=
  .record [
    ("kind", .text "Status"), ("apiVersion", .text "v1"), ("metadata", .record []),
    ("status", .text e.status), ("message", .text e.message), ("reason", .text e.reason),
    ("code", .int e.code)]

private def textOr (default : String) : Option Json → Option String
  | none => some default
  | some v => v.text?

private def code? (v : Json) : Option Nat := do
  let i ← v.int?
  if 0 ≤ i ∧ i < 0x10000 then some i.toNat else none

/-- A record of which the message and the reason may be missing. -/
def decode? (v : Json) : Option ApiError := do
  match ← v.fields? ["status", "message", "reason", "code"] with
  | [some status, message, reason, some code] =>
    let status ← status.text?
    let message ← textOr "" message
    let reason ← textOr "" reason
    let code ← code? code
    some { status, message, reason, code }
  | _ => none

/-- The phrases of the codes that have one. -/
def phrases : List (Nat × String) := [
  (400, "Bad Request"), (401, "Unauthorized"), (402, "Payment Required"), (403, "Forbidden"),
  (404, "Not Found"), (405, "Method Not Allowed"), (406, "Not Acceptable"),
  (407, "Proxy Authentication Required"), (408, "Request Timeout"), (409, "Conflict"),
  (410, "Gone"), (411, "Length Required"), (412, "Precondition Failed"), (413, "Payload Too Large"),
  (414, "URI Too Long"), (415, "Unsupported Media Type"), (416, "Range Not Satisfiable"),
  (417, "Expectation Failed"), (418, "I'm a teapot"), (421, "Misdirected Request"),
  (422, "Unprocessable Entity"), (423, "Locked"), (424, "Failed Dependency"),
  (426, "Upgrade Required"), (428, "Precondition Required"), (429, "Too Many Requests"),
  (431, "Request Header Fields Too Large"), (451, "Unavailable For Legal Reasons"),
  (500, "Internal Server Error"), (501, "Not Implemented"), (502, "Bad Gateway"),
  (503, "Service Unavailable"), (504, "Gateway Timeout"), (505, "HTTP Version Not Supported"),
  (506, "Variant Also Negotiates"), (507, "Insufficient Storage"), (508, "Loop Detected"),
  (510, "Not Extended"), (511, "Network Authentication Required")]

/-- What is known of a failure that the server did not describe. -/
def undescribed (code : Nat) (body : String) : ApiError where
  status := Text.digits 10 code ++ " " ++ (phrases.lookup code).getD "<unknown status code>"
  message := Text.quote body
  reason := "Failed to parse error data"
  code := code

def render (e : ApiError) : String :=
  "ApiError: " ++ e.message ++ ": " ++ e.reason ++
    " (ErrorResponse \x7b status: " ++ Text.quote e.status ++
    ", message: " ++ Text.quote e.message ++ ", reason: " ++ Text.quote e.reason ++
    ", code: " ++ Text.digits 10 e.code ++ " \x7d)"

end ApiError

/-- A body is a value, or text that may be the text of one. -/
inductive Body where
  | value (v : Json)
  | text (s : String)

namespace Body

def json? : Body → Option Json
  | .value v => some v
  | .text s => Json.parse? s

def toText : Body → String
  | .value v => v.render
  | .text s => s

end Body

structure Reply where
  code : Nat := 200
  body : Body

namespace Reply

def ofError (e : ApiError) : Reply := ⟨e.code, .value e.toJson⟩

/-- The body, unless the code says that the request failed. -/
def body? (r : Reply) : Except ApiError Body :=
  if r.code < 400 then .ok r.body
  else .error ((r.body.json?.bind ApiError.decode?).getD (.undescribed r.code r.body.toText))

end Reply

end WorkloadMap
