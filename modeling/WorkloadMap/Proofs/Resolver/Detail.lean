import WorkloadMap.Proofs.Resolver.Run
import WorkloadMap.Resolver.Workloads

/-!
The details of one workload, taken apart: what is told of it from its objects, and what the look-ups
of its pods add to that. Main statement: the look-ups change nothing but the statuses of proxies,
and those by their answers alone.
-/
namespace WorkloadMap

abbrev StatusAnswer := Except Failure (Option SyncStatus)

namespace PodSummary

def withoutStatus (pod : PodSummary) : PodSummary := { pod with proxyStatus := none }

def answered (pod : PodSummary) : Option StatusAnswer → PodSummary
  | none => pod
  | some (.ok status) => { pod with proxyStatus := status.map SyncStatus.toProxyStatus }
  | some (.error _) => { pod with proxyStatus := none }

theorem withoutStatus_answered (pod : PodSummary) (answer : Option StatusAnswer) :
    (pod.answered answer).withoutStatus = pod.withoutStatus := by
  rcases answer with _ | _ | _ <;> rfl

theorem map_withoutStatus_answered {pods : List PodSummary} {answers : List (Option StatusAnswer)}
    (h : answers.length = pods.length) :
    (List.zipWith answered pods answers).map withoutStatus = pods.map withoutStatus := by
  induction pods generalizing answers with
  | nil => simp
  | cons pod pods ih =>
    cases answers with
    | nil => simp at h
    | cons answer answers =>
      simp [withoutStatus_answered, ih (Nat.succ.inj h)]

end PodSummary

namespace Workload

def withoutStatuses (w : Workload) : Workload :=
  { w with pods := w.pods.map PodSummary.withoutStatus }

def answered (w : Workload) (answers : List (Option StatusAnswer)) : Workload :=
  { w with pods := List.zipWith PodSummary.answered w.pods answers }

theorem withoutStatuses_answered {w : Workload} {answers : List (Option StatusAnswer)}
    (h : answers.length = w.pods.length) :
    (w.answered answers).withoutStatuses = w.withoutStatuses := by
  simp only [withoutStatuses, answered, PodSummary.map_withoutStatus_answered h]

/-- A workload as an operation tells it, with services only if they are asked for. -/
def withServicesIf (w : Workload) (included : Bool) (services : List Service) : Workload :=
  if included then w.withServices services else w

theorem withoutStatuses_withServicesIf (w : Workload) (included : Bool) (services : List Service) :
    (w.withServicesIf included services).withoutStatuses =
      w.withoutStatuses.withServicesIf included services := by
  cases included <;> rfl

theorem kind_withServicesIf (w : Workload) (included : Bool) (services : List Service) :
    (w.withServicesIf included services).kind = w.kind := by
  cases included <;> rfl

end Workload

namespace Resolver

variable {r : Resolver} {ns name : String} {hint : Option Kind} {included : Bool}

/-- What the look-ups of some pods come to, one after the other. A pod without a sidecar is not
looked up. -/
def lookUps (r : Resolver) (ns : String) : List PodSummary → Progress → List (Option StatusAnswer)
  | [], _ => []
  | pod :: pods, p =>
    if pod.hasSidecar then
      some (r.syncStatus ns pod.name p).1 :: lookUps r ns pods (r.syncStatus ns pod.name p).2
    else none :: lookUps r ns pods p

theorem length_lookUps (r : Resolver) (ns : String) (pods : List PodSummary) (p : Progress) :
    (r.lookUps ns pods p).length = pods.length := by
  induction pods generalizing p with
  | nil => rfl
  | cons pod pods ih =>
    unfold lookUps
    split <;> simp [ih]

/-- The workload as its objects tell of it, and the services that were fetched beside them. -/
def described (r : Resolver) (ns name : String) (hint : Option Kind) (included : Bool) :
    Run (Workload × List Service) := do
  let _ ← r.namespaceInfo ns
  let (resources, services) ←
    r.fetch ((r.workloadResources ns name hint).both (r.services included ns))
  let w ← r.found resources name hint
  return (w, services)

theorem namespaceInfo_apply_of_found (haccessible : r.config.isAccessible ns = true)
    {n : Namespace} (hn : (r.call (.namespaceInfo ns)).result = .ok (some n)) (p : Progress) :
    ∃ q, r.namespaceInfo ns p = (.ok n.info, q) := by
  obtain ⟨q, hwait⟩ := Run.wait_of_ok hn p
  refine ⟨q, ?_⟩
  unfold namespaceInfo
  rw [haccessible]
  exact Run.bind_apply_of_ok hwait

theorem namespaceInfo_apply_ok_iff {p : Progress} :
    (∃ info q, r.namespaceInfo ns p = (.ok info, q)) ↔ r.config.isAccessible ns = true ∧
      ∃ n : Namespace, (r.call (.namespaceInfo ns)).result = .ok (some n) := by
  constructor
  · rintro ⟨info, q, h⟩
    unfold namespaceInfo at h
    cases haccessible : r.config.isAccessible ns with
    | false =>
      rw [haccessible] at h
      cases h
    | true =>
      rw [haccessible] at h
      obtain ⟨found, p₁, hwait, hfound⟩ := Run.of_bind_ok h
      have hresult : (r.call (.namespaceInfo ns)).result = .ok found := congrArg Prod.fst hwait
      cases found with
      | none => cases hfound
      | some n => exact ⟨rfl, n, hresult⟩
  · rintro ⟨haccessible, n, hn⟩
    obtain ⟨q, hq⟩ := namespaceInfo_apply_of_found haccessible hn p
    exact ⟨n.info, q, hq⟩

/-- What a description of a workload rests on: answers to its calls, whatever was done before. -/
structure Describes (r : Resolver) (ns name : String) (hint : Option Kind) (included : Bool)
    (w : Workload) (services : List Service) : Prop where
  accessible : r.config.isAccessible ns = true
  namespaceInfo : ∃ n : Namespace, (r.call (.namespaceInfo ns)).result = .ok (some n)
  found : ∃ resources, (r.workloadResources ns name hint).Gives r.config.limit resources ∧
    resources.workload? r.config.sidecarKey name hint = some w
  services : (r.services included ns).Gives r.config.limit services

theorem found_apply_ok_iff {resources : Resources} {w : Workload} {p : Progress} :
    (∃ q, r.found resources name hint p = (.ok w, q)) ↔
      resources.workload? r.config.sidecarKey name hint = some w := by
  unfold Resolver.found
  cases resources.workload? r.config.sidecarKey name hint with
  | none =>
    constructor
    · rintro ⟨_, h⟩
      cases h
    · intro h
      cases h
  | some w' =>
    constructor
    · rintro ⟨_, h⟩
      exact congrArg some (Except.ok.inj (congrArg Prod.fst h))
    · intro h
      exact ⟨p, by rw [Option.some.inj h]; rfl⟩

theorem described_apply_of_gives {resources : Resources} {services : List Service}
    (haccessible : r.config.isAccessible ns = true)
    (hnamespace : ∃ n : Namespace, (r.call (.namespaceInfo ns)).result = .ok (some n))
    (hfetched : (r.workloadResources ns name hint).Gives r.config.limit resources)
    (hservices : (r.services included ns).Gives r.config.limit services) (p : Progress) :
    ∃ q, r.described ns name hint included p =
      (r.found resources name hint >>= fun w => pure (w, services)) q := by
  obtain ⟨info, p₁, hinfo⟩ := (namespaceInfo_apply_ok_iff (p := p)).2 ⟨haccessible, hnamespace⟩
  obtain ⟨q, hfetch⟩ := Run.waitWithin_of_gives (hfetched.both hservices) p₁
  refine ⟨q, ?_⟩
  unfold described Resolver.fetch
  rw [Run.bind_apply_of_ok hinfo, Run.bind_apply_of_ok hfetch]

theorem describes_iff {w : Workload} {services : List Service} {p : Progress} :
    r.Describes ns name hint included w services ↔
      ∃ q, r.described ns name hint included p = (.ok (w, services), q) := by
  constructor
  · rintro ⟨haccessible, hnamespace, ⟨resources, hfetched, hfound⟩, hservices⟩
    obtain ⟨p₁, hdescribed⟩ :=
      described_apply_of_gives haccessible hnamespace hfetched hservices p
    obtain ⟨q, hw⟩ := (found_apply_ok_iff (p := p₁)).2 hfound
    exact ⟨q, hdescribed.trans (Run.bind_apply_of_ok hw)⟩
  · rintro ⟨q, h⟩
    obtain ⟨info, p₁, hinfo, h⟩ := Run.of_bind_ok h
    obtain ⟨⟨resources, services'⟩, p₂, hfetch, h⟩ := Run.of_bind_ok h
    obtain ⟨w', p₃, hw, h⟩ := Run.of_bind_ok h
    cases h
    obtain ⟨hfetched, hservices⟩ := (Run.gives_of_waitWithin hfetch).of_both
    obtain ⟨haccessible, hnamespace⟩ := namespaceInfo_apply_ok_iff.1 ⟨info, p₁, hinfo⟩
    exact ⟨haccessible, hnamespace, ⟨resources, hfetched, found_apply_ok_iff.1 ⟨_, hw⟩⟩, hservices⟩

def withStatuses (r : Resolver) (ns : String) (w : Workload) : Run Workload :=
  w.attachProxyStatus fun pod => liftM (r.syncStatus ns pod).run

theorem getWorkload_eq_bind : r.getWorkload ns name hint included = do
    let (w, services) ← r.described ns name hint included
    let w ← r.withStatuses ns w
    return w.withServicesIf included services := by
  unfold getWorkload described withStatuses Workload.withServicesIf
  simp only [bind_assoc, pure_bind]

theorem withStatuses_pod_apply (r : Resolver) (ns : String) (pod : PodSummary) (p : Progress) :
    (pod.attachProxyStatus fun pod => (liftM (r.syncStatus ns pod).run : Run StatusAnswer)) p =
      if pod.hasSidecar then
        (.ok (pod.answered (some (r.syncStatus ns pod.name p).1)), (r.syncStatus ns pod.name p).2)
      else (.ok pod, p) := by
  have hlookUp : (liftM (r.syncStatus ns pod.name).run : Run StatusAnswer) p =
      (.ok (r.syncStatus ns pod.name p).1, (r.syncStatus ns pod.name p).2) := rfl
  unfold PodSummary.attachProxyStatus
  cases pod.hasSidecar with
  | false => rfl
  | true =>
    rw [if_neg (by simp), Run.bind_apply_of_ok hlookUp]
    cases (r.syncStatus ns pod.name p).1 <;> rfl

theorem withStatuses_pods_apply (r : Resolver) (ns : String) (pods : List PodSummary)
    (p : Progress) :
    ∃ p', (pods.mapM fun pod : PodSummary => pod.attachProxyStatus fun pod =>
      (liftM (r.syncStatus ns pod).run : Run StatusAnswer)) p =
        (.ok (List.zipWith PodSummary.answered pods (r.lookUps ns pods p)), p') := by
  induction pods generalizing p with
  | nil => exact ⟨p, rfl⟩
  | cons pod pods ih =>
    have hfirst := withStatuses_pod_apply r ns pod p
    rw [List.mapM_cons]
    unfold lookUps
    cases hsidecar : pod.hasSidecar with
    | false =>
      obtain ⟨p', hrest⟩ := ih p
      rw [hsidecar, if_neg (by simp)] at hfirst
      refine ⟨p', ?_⟩
      rw [Run.bind_apply_of_ok hfirst, Run.bind_apply_of_ok hrest]
      rfl
    | true =>
      obtain ⟨p', hrest⟩ := ih (r.syncStatus ns pod.name p).2
      rw [hsidecar, if_pos rfl] at hfirst
      refine ⟨p', ?_⟩
      rw [Run.bind_apply_of_ok hfirst, Run.bind_apply_of_ok hrest]
      rfl

theorem withStatuses_apply (r : Resolver) (ns : String) (w : Workload) (p : Progress) :
    ∃ p', r.withStatuses ns w p = (.ok (w.answered (r.lookUps ns w.pods p)), p') := by
  obtain ⟨p', hpods⟩ := withStatuses_pods_apply r ns w.pods p
  refine ⟨p', ?_⟩
  unfold withStatuses Workload.attachProxyStatus
  rw [Run.bind_apply_of_ok hpods]
  rfl

/-- A workload that was described is told, whatever its look-ups come to. -/
theorem getWorkload_of_described {w : Workload} {services : List Service} {p q : Progress}
    (h : r.described ns name hint included p = (.ok (w, services), q)) :
    (r.getWorkload ns name hint included p).1 =
      .ok ((w.answered (r.lookUps ns w.pods q)).withServicesIf included services) := by
  obtain ⟨p', hstatuses⟩ := withStatuses_apply r ns w q
  rw [getWorkload_eq_bind, Run.bind_apply_of_ok h]
  dsimp only
  rw [Run.bind_apply_of_ok hstatuses]
  rfl

theorem described_of_getWorkload {w : Workload} {p : Progress}
    (h : (r.getWorkload ns name hint included p).1 = .ok w) :
    ∃ w₀ services q, r.described ns name hint included p = (.ok (w₀, services), q) ∧
      w = (w₀.answered (r.lookUps ns w₀.pods q)).withServicesIf included services := by
  rcases hrun : r.described ns name hint included p with ⟨result, q⟩
  cases result with
  | error e =>
    rw [getWorkload_eq_bind, Run.bind_apply_of_error hrun] at h
    cases h
  | ok x =>
    rw [getWorkload_of_described hrun] at h
    exact ⟨x.1, x.2, q, rfl, (Except.ok.inj h).symm⟩

/-- What the look-ups come to in one run. -/
def answers (r : Resolver) (ns name : String) (hint : Option Kind) (included : Bool)
    (p : Progress) : List (Option StatusAnswer) :=
  match r.described ns name hint included p with
  | (.ok (w, _), q) => r.lookUps ns w.pods q
  | (.error _, _) => []

theorem answers_of_described {w : Workload} {services : List Service} {p q : Progress}
    (h : r.described ns name hint included p = (.ok (w, services), q)) :
    r.answers ns name hint included p = r.lookUps ns w.pods q := by
  simp only [answers, h]

end Resolver

end WorkloadMap
