import WorkloadMap.Proofs.Resolver.Calls
import WorkloadMap.Proofs.Resolver.Detail
import WorkloadMap.Proofs.Resolver.Views

/-!
Kinds that the settings exclude, and the calls of one operation after the other. What an operation
asks for is decided in three places: by the kinds that are fetched for a namespace, by those that
are sought for a name, and by those that an update tries. Main statement: excluded kinds are left
alone under exactly those settings that do not exclude Jobs without excluding CronJobs.
-/
namespace WorkloadMap

namespace Config

variable {config : Config} {kind : Kind}

theorem includes_eq_true_iff :
    config.includes kind = true ↔ (kind ∈ config.excluded → kind ∈ essential) := by
  simp only [includes, Bool.or_eq_true, decide_eq_true_eq]
  constructor
  · rintro (hessential | hincluded) hexcluded
    · exact hessential
    · exact absurd hexcluded hincluded
  · intro h
    by_cases hexcluded : kind ∈ config.excluded
    · exact .inl (h hexcluded)
    · exact .inr hexcluded

theorem includes_pod (config : Config) : config.includes .pod = true := by
  simp [includes, essential]

end Config

namespace Operation

variable {r : Resolver} {o : Operation} {ns name : String} {hint : Option Kind} {kind : Kind}
  {c : Call}

/-- Whether an operation finds a workload by its name, and that may be a CronJob. -/
def mayFindCronJob : Operation → Bool
  | .get _ _ hint _ => hint.all (· == .controller .cronJob)
  | .appName .. => true
  | .list .. | .update .. | .pods .. | .pod .. | .apps .. | .app .. => false

theorem included_of_mem_namespaceResources {selector : Option String}
    (hc : c ∈ (r.namespaceResources ns selector).calls) (hkind : c.kind? = some kind) :
    r.config.includes kind = true := by
  rcases Resolver.mem_calls_namespaceResources.1 hc with rfl | ⟨k, hfetched, rfl⟩
  · cases hkind
    exact r.config.includes_pod
  · cases hkind
    exact Resolver.included_of_fetches hfetched

theorem included_or_jobs_of_mem_workloadResources
    (hc : c ∈ (r.workloadResources ns name hint).calls) (hkind : c.kind? = some kind) :
    r.config.includes kind = true ∨ c = .controllers .job ns ∧
      r.config.includes (.controller .cronJob) = true ∧
      hint.all (· == .controller .cronJob) = true := by
  rcases Resolver.mem_calls_workloadResources.1 hc with rfl | ⟨k, hsought, hcall⟩
  · cases hkind
    exact .inl r.config.includes_pod
  · rcases Resolver.fetches_of_seeks hsought with hfetched | ⟨rfl, hcron⟩
    · have hkind' : c.kind? = some (.controller k) := by
        rw [hcall]
        split <;> rfl
      obtain rfl := Option.some.inj (hkind.symm.trans hkind')
      exact .inl (Resolver.included_of_fetches hfetched)
    · refine .inr ⟨hcall, Resolver.included_of_fetches (Resolver.fetches_of_wants hcron), ?_⟩
      exact ((Bool.and_eq_true _ _).to_iff.1 hcron).2

theorem included_of_mem_patchTargets (h : kind ∈ r.patchTargets hint) :
    r.config.includes kind = true := by
  have hfilter := (List.mem_filter.1 h).2
  exact ((Bool.and_eq_true _ _).to_iff.1 hfilter).1

/-- Only where it may find a CronJob does an operation ask for something that may be excluded, and
then it lists the Jobs. -/
theorem included_or_jobs (hc : c ∈ o.objectCalls r) (hkind : c.kind? = some kind) :
    r.config.includes kind = true ∨ c = .controllers .job o.ns ∧
      r.config.includes (.controller .cronJob) = true ∧ o.mayFindCronJob = true := by
  cases o with
  | list ns link => exact .inl (included_of_mem_namespaceResources hc hkind)
  | apps ns link => exact .inl (included_of_mem_namespaceResources hc hkind)
  | app ns name => exact .inl (included_of_mem_namespaceResources hc hkind)
  | get ns name hint included => exact included_or_jobs_of_mem_workloadResources hc hkind
  | appName ns name => exact included_or_jobs_of_mem_workloadResources hc hkind
  | update ns name hint patch =>
    obtain ⟨target, htarget, rfl⟩ := List.mem_map.1 hc
    cases hkind
    exact .inl (included_of_mem_patchTargets htarget)
  | pods ns selector =>
    cases List.mem_singleton.1 hc
    cases hkind
    exact .inl r.config.includes_pod
  | pod ns name =>
    cases List.mem_singleton.1 hc
    cases hkind
    exact .inl r.config.includes_pod

end Operation

/-- One operation in a sequence, with what answers it and the milliseconds since the one before. -/
structure Turn where
  source : Source
  operation : Operation
  idle : Nat := 0

namespace Config

variable {config : Config} {ttl : Nat} {p : Progress} {t : Turn} {turns : List Turn} {c : Call}

def turn (config : Config) (ttl : Nat) (p : Progress) (t : Turn) : Progress :=
  (t.operation.run ⟨config, t.source, ttl⟩ { p with clock := p.clock + t.idle }).2

def history (config : Config) (ttl : Nat) (p : Progress) (turns : List Turn) : Progress :=
  turns.foldl (config.turn ttl) p

def Permits (config : Config) (o : Operation) (c : Call) : Prop :=
  config.isAccessible o.ns = true ∧
    ∀ kind, c.kind? = some kind → config.includes kind = true ∨ c = .controllers .job o.ns ∧
      config.includes (.controller .cronJob) = true ∧ o.mayFindCronJob = true

theorem permits_of_mem_turn (hc : c ∈ (config.turn ttl p t).calls) :
    c ∈ p.calls ∨ config.Permits t.operation c := by
  let r : Resolver := ⟨config, t.source, ttl⟩
  unfold turn at hc
  cases haccessible : config.isAccessible t.operation.ns with
  | false =>
    rw [Operation.run_of_not_accessible (r := r) haccessible] at hc
    exact .inl hc
  | true =>
    -- What was asked for before this turn is kept, and the rest is what its operation makes.
    obtain ⟨calls, hcalls, hmade⟩ :=
      t.operation.makes_run r { p with clock := p.clock + t.idle }
    rw [hcalls] at hc
    rcases List.mem_append.1 hc with hbefore | hnew
    · exact .inl hbefore
    · refine .inr ⟨haccessible, fun kind hkind => ?_⟩
      rcases hmade c hnew with hplain | hobject
      · cases hplain.symm.trans hkind
      · exact Operation.included_or_jobs hobject hkind

theorem permits_of_mem_history (hc : c ∈ (config.history ttl p turns).calls) :
    c ∈ p.calls ∨ ∃ t ∈ turns, config.Permits t.operation c := by
  induction turns generalizing p with
  | nil => exact .inl hc
  | cons t turns ih =>
    rcases ih hc with hturn | ⟨t', ht', hpermits⟩
    · rcases permits_of_mem_turn hturn with hbefore | hpermits
      · exact .inl hbefore
      · exact .inr ⟨t, List.mem_cons_self, hpermits⟩
    · exact .inr ⟨t', List.mem_cons_of_mem t ht', hpermits⟩

theorem lists_jobs_of_mem_history {clock : Nat} {held : Option Snapshot}
    (hc : c ∈ (config.history ttl { clock, held } turns).calls) {kind : Kind}
    (hkind : c.kind? = some kind) (hexcluded : kind ∈ config.excluded) (hfree : kind ∉ essential) :
    ∃ ns, c = .controllers .job ns ∧ config.isAccessible ns = true ∧
      config.includes (.controller .cronJob) = true := by
  rcases permits_of_mem_history hc with hbefore | ⟨t, _, haccessible, hpermits⟩
  · simp at hbefore
  · rcases hpermits kind hkind with hincluded | ⟨hjobs, hcron, _⟩
    · exact absurd (includes_eq_true_iff.1 hincluded hexcluded) hfree
    · exact ⟨_, hjobs, haccessible, hcron⟩

/-- The server of the shop, where every namespace is there. -/
def openShop : Source where
  openshift := false
  outcome
    | .namespaceInfo ns => { result := .ok (some ⟨{ name := some ns }⟩) }
    | c => (Source.live (some Resolver.shopServer) {} false).outcome c

/-- Where CronJobs are not excluded, a workload that is found by its name has the Jobs listed. -/
theorem lists_jobs_of_get (config : Config) (source : Source) (ttl : Nat) (ns name : String)
    (haccessible : config.isAccessible ns = true)
    (hnamespace : ∃ n : Namespace, (source.outcome (.namespaceInfo ns)).result = .ok (some n))
    (hcron : config.includes (.controller .cronJob) = true) :
    .controllers .job ns ∈
      (config.history ttl {} [{ source, operation := .get ns name none false }]).calls := by
  let r : Resolver := ⟨config, source, ttl⟩
  have hsought : .controllers .job ns ∈ (r.workloadResources ns name none).calls := by
    refine Resolver.mem_calls_workloadResources.2 (.inr ⟨.job, ?_, rfl⟩)
    simp [Resolver.seeks, Resolver.wants_none, Resolver.fetches, r, hcron]
  obtain ⟨info, q, hinfo⟩ : ∃ info q, r.namespaceInfo ns {} = (.ok info, q) :=
    Resolver.namespaceInfo_apply_ok_iff.2 ⟨haccessible, hnamespace⟩
  exact Resolver.mem_calls_getWorkload hinfo hsought

/-- Of the kinds that are excluded only Jobs are ever asked for, and none are under exactly those
settings that do not exclude Jobs without excluding CronJobs, or that leave no namespace to read. -/
theorem excluded_spared_iff (config : Config) :
    (∀ ttl clock held turns, ∀ c ∈ (config.history ttl { clock, held } turns).calls, ∀ kind,
      c.kind? = some kind → kind ∈ config.excluded → kind ∉ essential →
        ∃ ns, c = .controllers .job ns) ∧
    ((∀ ttl clock held turns, ∀ c ∈ (config.history ttl { clock, held } turns).calls, ∀ kind,
        c.kind? = some kind → kind ∈ config.excluded → kind ∈ essential) ↔
      ((∃ ns, config.isAccessible ns = true) → .controller .job ∈ config.excluded →
        .controller .cronJob ∈ config.excluded)) := by
  refine ⟨fun ttl clock held turns c hc kind hkind hexcluded hfree => ?_, ?_⟩
  · obtain ⟨ns, hjobs, _⟩ := lists_jobs_of_mem_history hc hkind hexcluded hfree
    exact ⟨ns, hjobs⟩
  constructor
  · rintro hspared ⟨ns, haccessible⟩ hjob
    by_contra hcron
    -- One look-up by name, without a hint, then lists the Jobs that are excluded.
    have hincluded : config.includes (.controller .cronJob) = true :=
      includes_eq_true_iff.2 fun h => absurd h hcron
    have hlisted :=
      lists_jobs_of_get config openShop 0 ns "" haccessible ⟨_, rfl⟩ hincluded
    have hessential := hspared 0 0 none _ _ hlisted (.controller .job) rfl hjob
    simp [essential] at hessential
  · intro hconfig ttl clock held turns c hc kind hkind hexcluded
    by_contra hfree
    obtain ⟨ns, rfl, haccessible, hcron⟩ := lists_jobs_of_mem_history hc hkind hexcluded hfree
    cases hkind
    have hcronFree := includes_eq_true_iff.1 hcron (hconfig ⟨ns, haccessible⟩ hexcluded)
    simp [essential] at hcronFree

theorem excluded_jobs_listed :
    ¬∀ ttl clock held turns, ∀ c ∈
        (history { excluded := [.controller .job] } ttl { clock, held } turns).calls,
      ∀ kind, c.kind? = some kind → kind ∈ [Kind.controller .job] → kind ∈ essential := by
  intro hspared
  have hlisted := lists_jobs_of_get { excluded := [.controller .job] }
    (.live (some Resolver.shopServer) {} false) 5000 "shop" "web" rfl ⟨_, rfl⟩ rfl
  have hessential := hspared 5000 0 none _ _ hlisted (.controller .job) rfl (by simp)
  simp [essential] at hessential

end Config

end WorkloadMap
