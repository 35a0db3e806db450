import Mathlib.Control.Traversable.Basic
import WorkloadMap.Proofs.Resolver.Result
import WorkloadMap.Proofs.Resolver.Views

/-!
The statuses of proxies, which are told as far as they can be. Each pod with a sidecar is looked up
once, in the order of the pods, and its answer goes to it alone. Main statement: whatever istiod
does meanwhile, the details of a workload come to the same, but for the statuses of its sidecars.
-/
namespace WorkloadMap

universe u

namespace SyncStatus

/-- The word for a discovery service, by the nonce last sent to the proxy and the one that it last
acknowledged. -/
inductive Tells (sent acked : String) : String → Prop
  | notSent (unsent : sent = "") : Tells sent acked "NOT_SENT"
  | synced (unempty : sent ≠ "") (same : sent = acked) : Tells sent acked "Synced"
  | stale (unempty : sent ≠ "") (other : sent ≠ acked) : Tells sent acked "STALE"

theorem tells_word (sent acked : String) : Tells sent acked (word sent acked) := by
  unfold word
  split
  next unsent => exact .notSent unsent
  next unempty =>
    split
    next same => exact .synced unempty same
    next other => exact .stale unempty other

end SyncStatus

namespace StatusAnswer

/-- No answer is as good as none. -/
def status : StatusAnswer → Option ProxyStatus
  | .ok state => state.map SyncStatus.toProxyStatus
  | .error _ => none

/-- What an answer gives to a sidecar: clusters are told as CDS, endpoints as EDS, listeners as LDS
and routes as RDS. -/
inductive Gives : StatusAnswer → Option ProxyStatus → Prop
  | told {state : SyncStatus} {status : ProxyStatus}
      (cds : SyncStatus.Tells state.clusterSent state.clusterAcked status.cds)
      (eds : SyncStatus.Tells state.endpointSent state.endpointAcked status.eds)
      (lds : SyncStatus.Tells state.listenerSent state.listenerAcked status.lds)
      (rds : SyncStatus.Tells state.routeSent state.routeAcked status.rds) :
      Gives (.ok (some state)) (some status)
  | absent : Gives (.ok none) none
  | failed (e : Failure) : Gives (.error e) none

theorem gives_status (answer : StatusAnswer) : answer.Gives answer.status := by
  match answer with
  | .ok (some state) =>
    exact .told (SyncStatus.tells_word _ _) (SyncStatus.tells_word _ _)
      (SyncStatus.tells_word _ _) (SyncStatus.tells_word _ _)
  | .ok none => exact .absent
  | .error e => exact .failed e

end StatusAnswer

namespace PodSummary

/-- The answers go to the pods with a sidecar, one to each, in their order. -/
def tell : List PodSummary → List StatusAnswer → List PodSummary
  | [], _ => []
  | pod :: pods, answers =>
    if pod.hasSidecar then pod.answered answers.head? :: tell pods answers.tail
    else pod :: tell pods answers

variable {m : Type → Type u} [Monad m] [LawfulMonad m]

theorem attachProxyStatus_of_sidecar {pod : PodSummary} (h : pod.hasSidecar = true)
    (lookUp : String → m StatusAnswer) :
    pod.attachProxyStatus lookUp =
      (fun answer => pod.answered (some answer)) <$> lookUp pod.name := by
  unfold attachProxyStatus
  rw [h, map_eq_pure_bind]
  refine bind_congr fun answer => ?_
  cases answer <;> rfl

theorem mapM_attachProxyStatus (lookUp : String → m StatusAnswer) (pods : List PodSummary) :
    pods.mapM (·.attachProxyStatus lookUp) =
      tell pods <$> (pods.filter (·.hasSidecar)).mapM fun pod => lookUp pod.name := by
  induction pods with
  | nil => simp [tell]
  | cons pod pods ih =>
    rw [List.mapM_cons, ih]
    cases hsidecar : pod.hasSidecar with
    | false =>
      rw [List.filter_cons_of_neg (by simp [hsidecar])]
      simp [attachProxyStatus, tell, hsidecar]
    | true =>
      rw [List.filter_cons_of_pos hsidecar, List.mapM_cons, attachProxyStatus_of_sidecar hsidecar]
      simp [tell, hsidecar]

omit [Monad m] [LawfulMonad m]

theorem answered_of_some (pod : PodSummary) (answer : StatusAnswer) :
    pod.answered (some answer) = { pod with proxyStatus := answer.status } := by
  cases answer <;> rfl

theorem length_tell (pods : List PodSummary) (answers : List StatusAnswer) :
    (tell pods answers).length = pods.length := by
  induction pods generalizing answers with
  | nil => rfl
  | cons pod pods ih =>
    unfold tell
    split <;> simp [ih]

/-- A pod is told by the answer that comes after those for the sidecars before it. -/
theorem getElem?_tell (pods : List PodSummary) (answers : List StatusAnswer) (i : Nat) :
    (tell pods answers)[i]? = pods[i]?.map fun pod =>
      if pod.hasSidecar then pod.answered answers[(pods.take i).countP (·.hasSidecar)]?
      else pod := by
  induction pods generalizing answers i with
  | nil => rfl
  | cons pod pods ih =>
    unfold tell
    cases hsidecar : pod.hasSidecar with
    | false =>
      rw [if_neg (by simp)]
      cases i with
      | zero => simp [hsidecar]
      | succ i => simp [ih, hsidecar]
    | true =>
      rw [if_pos rfl]
      cases i with
      | zero => simp [hsidecar, List.head?_eq_getElem?]
      | succ i => simp [ih, hsidecar]

/-- The pods are the same but for the status of the proxy, which only one with a sidecar has. -/
structure DiffersInStatus (pod pod' : PodSummary) : Prop where
  frame : { pod' with proxyStatus := pod.proxyStatus } = pod
  plain : pod.hasSidecar = false → pod' = pod

theorem differsInStatus_answered {pod : PodSummary} (h : pod.hasSidecar = true)
    (answer answer' : Option StatusAnswer) :
    (pod.answered answer).DiffersInStatus (pod.answered answer') := by
  have hsidecar : (pod.answered answer).hasSidecar = true := by
    rcases answer with _ | _ | _ <;> exact h
  refine ⟨?_, fun hplain => Bool.noConfusion (hsidecar.symm.trans hplain)⟩
  rcases answer with _ | _ | _ <;> rcases answer' with _ | _ | _ <;> rfl

theorem forall₂_tell (pods : List PodSummary) (answers answers' : List StatusAnswer) :
    List.Forall₂ DiffersInStatus (tell pods answers) (tell pods answers') := by
  induction pods generalizing answers answers' with
  | nil => exact .nil
  | cons pod pods ih =>
    unfold tell
    cases hsidecar : pod.hasSidecar with
    | false => exact .cons ⟨rfl, fun _ => rfl⟩ (ih answers answers')
    | true => exact .cons (differsInStatus_answered hsidecar _ _) (ih answers.tail answers'.tail)

end PodSummary

namespace Workload

def sidecars (w : Workload) : List PodSummary := w.pods.filter (·.hasSidecar)

def told (w : Workload) (answers : List StatusAnswer) : Workload :=
  { w with pods := PodSummary.tell w.pods answers }

/-- What a workload becomes by the answers for its sidecars. -/
structure BecomesBy (w : Workload) (answers : List StatusAnswer) (w' : Workload) : Prop where
  frame : { w' with pods := w.pods } = w
  length : w'.pods.length = w.pods.length
  plain : ∀ (i : Nat) (pod : PodSummary), w.pods[i]? = some pod → pod.hasSidecar = false →
    w'.pods[i]? = some pod
  sidecar : ∀ (i : Nat) (pod : PodSummary), w.pods[i]? = some pod → pod.hasSidecar = true →
    ∃ answer status, answers[(w.pods.take i).countP (·.hasSidecar)]? = some answer ∧
      answer.Gives status ∧ w'.pods[i]? = some { pod with proxyStatus := status }

theorem attachProxyStatus_eq {m : Type → Type u} [Monad m] [LawfulMonad m]
    (lookUp : String → m StatusAnswer) (w : Workload) :
    w.attachProxyStatus lookUp = w.told <$> w.sidecars.mapM fun pod => lookUp pod.name := by
  unfold attachProxyStatus
  rw [PodSummary.mapM_attachProxyStatus, ← map_eq_pure_bind, Functor.map_map]
  rfl

/-- Before a pod with a sidecar there are fewer sidecars than in all. -/
theorem countP_take_lt {w : Workload} {i : Nat} {pod : PodSummary} (h : w.pods[i]? = some pod)
    (hsidecar : pod.hasSidecar = true) :
    (w.pods.take i).countP (·.hasSidecar) < w.sidecars.length := by
  obtain ⟨hi, rfl⟩ := List.getElem?_eq_some_iff.1 h
  have hpods : w.sidecars.length = (w.pods.take i ++ w.pods[i] :: w.pods.drop (i + 1)).countP
      (·.hasSidecar) := by
    rw [← List.drop_eq_getElem_cons hi, List.take_append_drop, List.countP_eq_length_filter]
    rfl
  rw [hpods, List.countP_append, List.countP_cons_of_pos hsidecar]
  omega

theorem becomesBy_told {w : Workload} {answers : List StatusAnswer}
    (h : answers.length = w.sidecars.length) : w.BecomesBy answers (w.told answers) where
  frame := rfl
  length := PodSummary.length_tell w.pods answers
  plain i pod hpod hplain := by
    have htold := PodSummary.getElem?_tell w.pods answers i
    rw [hpod, Option.map_some, hplain, if_neg (by simp)] at htold
    exact htold
  sidecar i pod hpod hsidecar := by
    have hindex := countP_take_lt hpod hsidecar
    rw [← h] at hindex
    have htold := PodSummary.getElem?_tell w.pods answers i
    rw [hpod, Option.map_some, hsidecar, if_pos rfl, List.getElem?_eq_getElem hindex,
      PodSummary.answered_of_some] at htold
    exact ⟨_, _, List.getElem?_eq_getElem hindex, StatusAnswer.gives_status _, htold⟩

/-- The workloads are the same but for the statuses of sidecars. -/
structure DiffersInStatuses (w w' : Workload) : Prop where
  frame : { w' with pods := w.pods } = w
  pods : List.Forall₂ PodSummary.DiffersInStatus w.pods w'.pods

theorem differsInStatuses_told (w : Workload) (answers answers' : List StatusAnswer)
    (included : Bool) (services : List Service) :
    ((w.told answers).withServicesIf included services).DiffersInStatuses
      ((w.told answers').withServicesIf included services) := by
  cases included <;> exact ⟨rfl, PodSummary.forall₂_tell w.pods answers answers'⟩

/-- The same failure, or workloads that are the same but for the statuses of sidecars. -/
inductive SameButStatuses : Except Failure Workload → Except Failure Workload → Prop
  | failed (e : Failure) : SameButStatuses (.error e) (.error e)
  | told {w w' : Workload} (h : w.DiffersInStatuses w') : SameButStatuses (.ok w) (.ok w')

end Workload

namespace Resolver

variable {r r' : Resolver} {ns name : String} {hint : Option Kind} {included : Bool}

/-- What a description of a workload comes to. -/
def descriptionOf (r : Resolver) (ns name : String) (hint : Option Kind) (included : Bool) :
    Except Failure (Workload × List Service) :=
  (r.namespaceResult ns).bind fun _ =>
    (((r.workloadResources ns name hint).both (r.services included ns)).within
      r.config.limit).bind fun found =>
        match found.1.workload? r.config.sidecarKey name hint with
        | none => .error (.notFound "Workload" name)
        | some w => .ok (w, found.2)

theorem fst_described (p : Progress) :
    (r.described ns name hint included p).1 = r.descriptionOf ns name hint included := by
  unfold described descriptionOf
  rw [← fst_namespaceInfo_eq r ns p]
  refine Run.fst_bind (fun _ q => ?_) p
  unfold Resolver.fetch
  rw [← Run.fst_waitWithin _ q]
  refine Run.fst_bind (fun found q' => ?_) q
  dsimp only
  unfold Resolver.found
  cases found.1.workload? r.config.sidecarKey name hint <;> rfl

theorem described_apply {result : Except Failure (Workload × List Service)}
    (h : r.descriptionOf ns name hint included = result) (p : Progress) :
    ∃ q, r.described ns name hint included p = (result, q) :=
  ⟨_, Prod.ext ((fst_described p).trans h) rfl⟩

/-- The details of a workload with its pods looked up in some way or other. -/
def getWorkloadWith (r : Resolver) (lookUp : String → StateM Progress StatusAnswer)
    (ns name : String) (hint : Option Kind) (included : Bool) : Run Workload := do
  let (w, services) ← r.described ns name hint included
  let w ← w.attachProxyStatus fun pod => liftM (lookUp pod)
  return w.withServicesIf included services

theorem getWorkload_eq_with : r.getWorkload ns name hint included =
    r.getWorkloadWith (fun pod => (r.syncStatus ns pod).run) ns name hint included :=
  getWorkload_eq_bind

/-- Look-ups let a run go on whatever they come to. -/
theorem mapM_lookUp_apply (lookUp : String → StateM Progress StatusAnswer) (pods : List PodSummary)
    (p : Progress) : ∃ answers q,
      (pods.mapM fun pod => (liftM (lookUp pod.name) : Run StatusAnswer)) p = (.ok answers, q) := by
  induction pods generalizing p with
  | nil => exact ⟨[], p, rfl⟩
  | cons pod pods ih =>
    have hfirst : (liftM (lookUp pod.name) : Run StatusAnswer) p =
        (.ok (lookUp pod.name p).1, (lookUp pod.name p).2) := rfl
    obtain ⟨answers, q, hrest⟩ := ih (lookUp pod.name p).2
    refine ⟨(lookUp pod.name p).1 :: answers, q, ?_⟩
    rw [List.mapM_cons, Run.bind_apply_of_ok hfirst, Run.bind_apply_of_ok hrest]
    rfl

theorem getWorkloadWith_of_description (lookUp : String → StateM Progress StatusAnswer)
    {w : Workload} {services : List Service}
    (h : r.descriptionOf ns name hint included = .ok (w, services)) (p : Progress) :
    ∃ answers, (r.getWorkloadWith lookUp ns name hint included p).1 =
      .ok ((w.told answers).withServicesIf included services) := by
  obtain ⟨q, hrun⟩ := described_apply h p
  obtain ⟨answers, q', hanswers⟩ := mapM_lookUp_apply lookUp w.sidecars q
  refine ⟨answers, ?_⟩
  unfold getWorkloadWith
  rw [Run.bind_apply_of_ok hrun]
  dsimp only
  rw [Workload.attachProxyStatus_eq, map_eq_pure_bind, bind_assoc, Run.bind_apply_of_ok hanswers]
  rfl

theorem getWorkloadWith_of_error (lookUp : String → StateM Progress StatusAnswer) {e : Failure}
    (h : r.descriptionOf ns name hint included = .error e) (p : Progress) :
    (r.getWorkloadWith lookUp ns name hint included p).1 = .error e := by
  obtain ⟨q, hrun⟩ := described_apply h p
  exact congrArg Prod.fst (Run.bind_apply_of_error hrun)

/-- The resolvers differ in nothing but what istiod says, how long that takes, and for how long it
is shared. -/
structure SameButIstiod (r r' : Resolver) : Prop where
  config : r'.config = r.config
  openshift : r'.source.openshift = r.source.openshift
  outcome : ∀ c, c ≠ .syncText → r'.source.outcome c = r.source.outcome c

/-- The resolver without its istiod, which no description asks. -/
def withoutIstiod (r : Resolver) : Resolver where
  config := r.config
  ttl := 0
  source.openshift := r.source.openshift
  source.outcome
    | .syncText => { result := .error .syncAddress }
    | c => r.source.outcome c

theorem descriptionOf_withoutIstiod : r.withoutIstiod.descriptionOf ns name hint included =
    r.descriptionOf ns name hint included :=
  rfl

theorem SameButIstiod.withoutIstiod (h : SameButIstiod r r') :
    r'.withoutIstiod = r.withoutIstiod := by
  unfold Resolver.withoutIstiod
  rw [h.config, h.openshift]
  congr 2
  funext c
  cases c with
  | syncText => rfl
  | namespaceInfo | pods | pod | controllers | controller | services | istioObjects | patch =>
    exact h.outcome _ (by simp)

theorem SameButIstiod.descriptionOf (h : SameButIstiod r r') :
    r'.descriptionOf ns name hint included = r.descriptionOf ns name hint included := by
  rw [← descriptionOf_withoutIstiod, h.withoutIstiod, descriptionOf_withoutIstiod]

theorem SameButIstiod.getWorkloadWith (h : SameButIstiod r r')
    (lookUp lookUp' : String → StateM Progress StatusAnswer) (p p' : Progress) :
    Workload.SameButStatuses (r.getWorkloadWith lookUp ns name hint included p).1
      (r'.getWorkloadWith lookUp' ns name hint included p').1 := by
  cases hdescription : r.descriptionOf ns name hint included with
  | error e =>
    rw [getWorkloadWith_of_error lookUp hdescription,
      getWorkloadWith_of_error lookUp' (h.descriptionOf.trans hdescription)]
    exact .failed e
  | ok x =>
    obtain ⟨w, services⟩ := x
    obtain ⟨answers, hanswers⟩ := getWorkloadWith_of_description lookUp hdescription p
    obtain ⟨answers', hanswers'⟩ := getWorkloadWith_of_description lookUp'
      (h.descriptionOf.trans hdescription) p'
    rw [hanswers, hanswers']
    exact .told (w.differsInStatuses_told answers answers' included services)

/-- Statuses are attached to sidecars alone, each by the answer to its own look-up. So two runs that
differ in istiod, or in how pods are looked up at all, come to the same but for these statuses. -/
theorem statuses_bestEffort :
    (∀ (m : Type → Type u) [Monad m] [LawfulMonad m] (lookUp : String → String → m StatusAnswer)
      (ns : String) (w : Workload), w.attachProxyStatus (lookUp ns) =
        w.told <$> w.sidecars.mapM fun pod => lookUp ns pod.name) ∧
    (∀ (w : Workload) (answers : List StatusAnswer), answers.length = w.sidecars.length →
      w.BecomesBy answers (w.told answers)) ∧
    ∀ (r r' : Resolver), SameButIstiod r r' →
      ∀ (ns name : String) (hint : Option Kind) (included : Bool) (p p' : Progress),
        (∀ lookUp lookUp' : String → StateM Progress StatusAnswer,
          Workload.SameButStatuses (r.getWorkloadWith lookUp ns name hint included p).1
            (r'.getWorkloadWith lookUp' ns name hint included p').1) ∧
        Workload.SameButStatuses (r.getWorkload ns name hint included p).1
          (r'.getWorkload ns name hint included p').1 := by
  refine ⟨fun m _ _ lookUp ns w => w.attachProxyStatus_eq (lookUp ns),
    fun w answers => Workload.becomesBy_told, ?_⟩
  intro r r' h ns name hint included p p'
  refine ⟨fun lookUp lookUp' => h.getWorkloadWith lookUp lookUp' p p', ?_⟩
  rw [getWorkload_eq_with, getWorkload_eq_with]
  exact h.getWorkloadWith _ _ p p'

/-- A shop with one pod in the mesh and one outside of it, and what its istiod says. -/
def meshShop (said : Except Failure String) : Resolver where
  config := {}
  source.openshift := false
  source.outcome
    | .syncText => { result := said }
    | c => (Source.live (some (shopServer.set [("pods", .array [
        shopObject "web-1-a" [("labels", .record [("app", .text "web")]),
          ("annotations", .record [("sidecar.istio.io/status",
            .text "\x7b\"containers\": [\"istio-proxy\"]\x7d")]),
          shopOwner "ReplicaSet" "web-1"] [],
        shopObject "web-1-b" [("labels", .record [("app", .text "web")]),
          shopOwner "ReplicaSet" "web-1"] []])])) {} false).outcome c

theorem meshShop_sameButIstiod (said said' : Except Failure String) :
    SameButIstiod (meshShop said) (meshShop said') where
  config := rfl
  openshift := rfl
  outcome c hc := by
    cases c
    case syncText => exact absurd rfl hc
    all_goals rfl

/-- Clusters were taken up, endpoints were not yet, and no listeners were sent. -/
def answeringShop : Resolver :=
  meshShop (.ok (Json.render (.array [.record [("proxy", .text "web-1-a.shop"),
    ("cluster_sent", .text "n2"), ("cluster_acked", .text "n2"),
    ("endpoint_sent", .text "n3"), ("endpoint_acked", .text "n1"),
    ("listener_acked", .text "n1"), ("route_sent", .text "n4")]])))

def silentShop : Resolver := meshShop (.error (.syncUnavailable .unreachable))

def toldStatuses (result : Except Failure Workload) : Option (List (Option ProxyStatus)) :=
  result.toOption.map fun w => w.pods.map (·.proxyStatus)

/-- Of three pods all but the first have a sidecar. -/
def halfMeshed : Workload where
  name := "web"
  kind := .controller .deployment
  pods := [("web-1", false), ("web-2", true), ("web-3", true)].map fun (name, meshed) => {
    name, labels := ∅, createdAt := none, createdBy := []
    istioContainers := if meshed then [⟨"istio-proxy", ""⟩] else []
    istioInitContainers := [], status := none }

/-- Listeners were taken up, clusters were not yet, and no routes were sent. -/
def laggingProxy : SyncStatus where
  proxy := "web-2.shop"
  clusterSent := "n2"
  clusterAcked := "n1"
  endpointSent := "n3"
  listenerSent := "n4"
  listenerAcked := "n4"

def halfAnswered (_ns pod : String) : Id StatusAnswer :=
  if pod = "web-2" then .ok (some laggingProxy) else .error .syncUndecodable

/-- Proxies are told in each of the three words, and in none if istiod does not answer. -/
theorem meshShop_bestEffort :
    halfMeshed.attachProxyStatus (halfAnswered "shop") =
        halfMeshed.told <$> halfMeshed.sidecars.mapM (fun pod => halfAnswered "shop" pod.name) ∧
      halfMeshed.BecomesBy [.ok (some laggingProxy), .error .syncUndecodable]
        (halfMeshed.told [.ok (some laggingProxy), .error .syncUndecodable]) ∧
      (halfMeshed.attachProxyStatus (halfAnswered "shop")).pods.map (·.proxyStatus) =
        [none, some ⟨"STALE", "STALE", "Synced", "NOT_SENT"⟩, none] ∧
      Workload.SameButStatuses (answeringShop.getWorkload "shop" "web" none false {}).1
        (silentShop.getWorkload "shop" "web" none false {}).1 ∧
      toldStatuses (answeringShop.getWorkload "shop" "web" none false {}).1 =
        some [some ⟨"Synced", "STALE", "NOT_SENT", "STALE"⟩, none] ∧
      toldStatuses (silentShop.getWorkload "shop" "web" none false {}).1 = some [none, none] := by
  obtain ⟨hattach, hbecomes, hsame⟩ := statuses_bestEffort.{0}
  have hshops : SameButIstiod answeringShop silentShop := meshShop_sameButIstiod _ _
  refine ⟨hattach Id halfAnswered "shop" halfMeshed, hbecomes halfMeshed _ rfl, ?_, ?_, ?_, ?_⟩
  · decide +kernel
  · exact (hsame _ _ hshops "shop" "web" none false {} {}).2
  · decide +kernel
  · decide +kernel

end Resolver

end WorkloadMap
