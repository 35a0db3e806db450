import WorkloadMap.Report
import WorkloadMap.Resolver.Apps
import WorkloadMap.Resolver.Workloads

/-!
The operations that are open to users.
-/
namespace WorkloadMap

inductive Operation where
  | list (ns : String) (link : Bool)
  | get (ns name : String) (hint : Option Kind) (withServices : Bool)
  | update (ns name : String) (hint : Option Kind) (patch : Json)
  | pods (ns : String) (selector : Option String)
  | pod (ns name : String)
  | appName (ns name : String)
  | apps (ns : String) (link : Bool)
  | app (ns name : String)

namespace Operation

/-- The namespace an operation is confined to. -/
def ns : Operation → String
  | .list ns _ | .get ns _ _ _ | .update ns _ _ _ | .pods ns _ | .pod ns _ | .appName ns _
  | .apps ns _ | .app ns _ => ns

def Answer : Operation → Type
  | .list .. => WorkloadList
  | .get .. => Workload
  | .update .. => Unit
  | .pods .. => List PodSummary
  | .pod .. => PodSummary
  | .appName .. => Option String
  | .apps .. => AppList
  | .app .. => App

def run (r : Resolver) : (o : Operation) → Run o.Answer
  | .list ns link => r.listWorkloads ns link
  | .get ns name hint withServices => r.getWorkload ns name hint withServices
  | .update ns name hint patch => r.updateWorkload ns name hint patch
  | .pods ns selector => r.listPods ns selector
  | .pod ns name => r.getPod ns name
  | .appName ns name => r.appName ns name
  | .apps ns link => r.listApps ns link
  | .app ns name => r.getApp ns name

def tell : (o : Operation) → o.Answer → Json
  | .list .., answer => Report.workloadList answer
  | .get .., answer => Report.workload answer
  | .update .., _ => .null
  | .pods .., answer => Report.list Report.pod answer
  | .pod .., answer => Report.pod answer
  | .appName .., answer => Report.optional .text answer
  | .apps .., answer => Report.appList answer
  | .app .., answer => Report.app answer

end Operation

end WorkloadMap
