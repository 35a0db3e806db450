import WorkloadMap.CommandLine.Basic
import WorkloadMap.Session

/-!
Running a command line. What is at fault is told in a fixed order: the line itself, the patterns,
the text of a patch, and then whatever the operation meets with.
-/
namespace WorkloadMap.CommandLine

inductive Ending where
  /-- What is printed, and the requests made for it. -/
  | printed (text : String) (requests : List Request)
  | failed (message : String)
  /-- The line is refused. -/
  | misused

def Ending.exitCode : Ending → UInt32
  | .printed .. => 0
  | .failed _ => 1
  | .misused => 2

def config (line : CommandLine) : Except String Config := do
  let patterns (texts : List String) (message : String) : Except String (List Pattern) :=
    match texts.mapM Pattern.ofNamespaces? with
    | some ps => .ok ps
    | none => .error message
  let accessible ← patterns line.accessible "invalid accessible namespace pattern"
  let cached ← patterns line.cached "invalid cached namespace pattern"
  return {
    excluded := line.excluded
    accessible := some accessible
    cached
    appLabel := line.appLabel
    versionLabel := line.versionLabel
    sidecarKey := line.sidecarKey
    limit := line.limit }

/-- The operations of a command in turn, of which the last one's answer is told. -/
def operations : Command → Except String (List Operation × Operation)
  | .list ns link => .ok ([], .list ns link)
  | .get ns name kind withServices => .ok ([], .get ns name kind withServices)
  | .update ns name text kind =>
    match (Json.parse? text).bind Json.canonical? with
    | some patch => .ok ([.update ns name kind patch], .get ns name kind false)
    | none => .error "invalid JSON merge patch"
  | .pods ns selector => .ok ([], .pods ns selector)
  | .pod ns name => .ok ([], .pod ns name)
  | .appName ns name => .ok ([], .appName ns name)
  | .apps ns link => .ok ([], .apps ns link)
  | .app ns name => .ok ([], .app ns name)
  | .watch .. => .error "watch is not a one-shot command"

def runOperations (operations : List Operation × Operation) (r : Resolver) : Run Json := do
  for o in operations.1 do
    let _ ← o.run r
  return operations.2.tell (← operations.2.run r)

def run (line : CommandLine) (link : Client.Link) : Ending :=
  let ending : Except String Ending := do
    let config ← config line
    let operations ← operations line.command
    let session := Session.start config link line.istiod 5000 false
    let (ran, _) := session.run (runOperations operations)
    match ran.result with
    | .ok v =>
      return .printed (v.renderIndented 0 ++ "\n") (Session.startRequests link ++ ran.requests)
    | .error e => throw e.message
  match ending with
  | .ok ending => ending
  | .error message => .failed message

/-- Everything from the arguments on. -/
def interpret (args : List String) (link : Client.Link) : Ending :=
  match parse? args with
  | some line => line.run link
  | none => .misused

end WorkloadMap.CommandLine
