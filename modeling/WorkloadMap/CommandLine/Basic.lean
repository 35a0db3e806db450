import WorkloadMap.Cluster.Client
import WorkloadMap.CommandLine.LogFilter
import WorkloadMap.CommandLine.Value
import WorkloadMap.CommandLine.Words

/-!
Command lines: the options that hold for every command come first, then the command, its texts and
its own options in any order.
-/
namespace WorkloadMap

inductive Command where
  | list (ns : String) (link : Bool)
  | get (ns name : String) (kind : Option Kind) (withServices : Bool)
  /-- The patch is the text of one. -/
  | update (ns name patch : String) (kind : Option Kind)
  | pods (ns : String) (selector : Option String)
  | pod (ns name : String)
  | appName (ns name : String)
  | apps (ns : String) (link : Bool)
  | app (ns name : String)
  /-- Resolves the cached namespaces again and again, so many seconds apart. -/
  | watch (listen : String) (interval : Nat)
deriving DecidableEq

structure CommandLine where
  logLevel : String
  logFormat : CommandLine.LogFormat
  excluded : List Kind
  accessible : List String
  cached : List String
  appLabel : String
  versionLabel : String
  sidecarKey : String
  istiod : IstiodAddress
  limit : Nat
  command : Command

namespace CommandLine

/-- What selects a cluster and a user is left to the connection. -/
def connectionForms : List OptionForm :=
  ["cluster", "context", "kubeconfig", "user", "as", "as-group"].map fun name => { name := name }

private def headersForm : OptionForm := { name := "kube-api-response-headers-timeout" }

def forms : List OptionForm :=
  connectionForms ++ [headersForm] ++
    ["log-level", "log-format", "excluded-workloads", "accessible-namespaces", "cached-namespaces",
      "app-label", "version-label", "sidecar-annotation", "istiod-namespace", "istiod-service",
      "istiod-port", "fetch-timeout-ms"].map fun name => { name := name }

private def linkForm : OptionForm := { name := "link-istio-resources", takesValue := false }

private def servicesForm : OptionForm := { name := "include-services", takesValue := false }

private def kindForm : OptionForm := { name := "kind" }

private def selectorForm : OptionForm := { name := "selector", short := some 'l' }

private def bare (args : List String) (build : List String → Option Command) : Option Command := do
  build (texts (← words [] args))

private def listing (args : List String) (build : String → Bool → Command) : Option Command := do
  let ws ← words [linkForm] args
  let link ← switch? ws linkForm.name
  match texts ws with
  | [ns] => some (build ns link)
  | _ => none

private def get? (args : List String) : Option Command := do
  let ws ← words [kindForm, servicesForm] args
  let kind ← once? ws kindForm.name kind?
  let withServices ← switch? ws servicesForm.name
  match texts ws with
  | [ns, name] => some (.get ns name kind withServices)
  | _ => none

private def update? (args : List String) : Option Command := do
  let ws ← words [kindForm] args
  let kind ← once? ws kindForm.name kind?
  match texts ws with
  | [ns, name, patch] => some (.update ns name patch kind)
  | _ => none

private def pods? (args : List String) : Option Command := do
  let ws ← words [selectorForm] args
  let selector ← once? ws selectorForm.name text?
  match texts ws with
  | [ns] => some (.pods ns selector)
  | _ => none

private def named (build : String → String → Command) : List String → Option Command
  | [ns, name] => some (build ns name)
  | _ => none

private def watch? (args : List String) : Option Command := do
  let ws ← words [{ name := "admin-addr" }, { name := "resolve-interval-secs" }] args
  let listen ← once? ws "admin-addr" socket?
  let interval ← once? ws "resolve-interval-secs" number?
  match texts ws with
  | [] => some (.watch (listen.getD "0.0.0.0:8080") (interval.getD 10))
  | _ => none

def command? (name : String) (args : List String) : Option Command :=
  match name with
  | "list" => listing args .list
  | "get" => get? args
  | "update" => update? args
  | "pods" => pods? args
  | "pod" => bare args (named .pod)
  | "app-name" => bare args (named .appName)
  | "apps" => listing args .apps
  | "app" => bare args (named .app)
  | "watch" => watch? args
  | _ => none

/-- A list may be given in parts, each with commas. -/
private def parts (ws : List Word) (name : String) : List String :=
  (values ws name).flatMap pieces

/-- A command line that is refused is none. -/
def parse? (args : List String) : Option CommandLine := do
  let (ws, name, rest) ← leading forms args
  let _ ← connectionForms.mapM fun form => once? ws form.name text?
  let _ ← once? ws headersForm.name duration?
  let textOr (name default : String) : Option String := (once? ws name text?).map (·.getD default)
  let logLevel ← once? ws "log-level" logFilter?
  let logFormat ← once? ws "log-format" logFormat?
  let accessible := parts ws "accessible-namespaces"
  let appLabel ← textOr "app-label" "app"
  let versionLabel ← textOr "version-label" "version"
  let sidecarKey ← textOr "sidecar-annotation" "sidecar.istio.io/status"
  let istiodNs ← textOr "istiod-namespace" "istio-system"
  let service ← textOr "istiod-service" "istiod"
  let port ← once? ws "istiod-port" port?
  let limit ← once? ws "fetch-timeout-ms" number?
  let command ← command? name rest
  some {
    logLevel := logLevel.getD "workloads=info,warn"
    logFormat := logFormat.getD .plain
    excluded := (parts ws "excluded-workloads").map Kind.ofName
    accessible := if accessible.isEmpty then ["**"] else accessible
    cached := parts ws "cached-namespaces"
    appLabel, versionLabel, sidecarKey
    istiod := { ns := istiodNs, service, port := port.getD 15014 }
    limit := limit.getD 30000
    command }

end CommandLine

end WorkloadMap
