import WorkloadMap.Proofs.Cluster.NotFound
import WorkloadMap.Proofs.Resolver.Answers
import WorkloadMap.Proofs.Resolver.Views

/-!
What is fetched, as a whole or not at all. An operation goes on from the answers to all of its
calls; if one of them fails in time it fails with such a failure, and otherwise its time is over.
Main statement: what the operations tell of a namespace is never told from a part of the answers.
-/
namespace WorkloadMap

namespace Batch

variable {α β : Type} {s : Source} {limit : Nat} {x : Batch α} {y : Batch β}

/-- A batch comes to something in time only by all of its calls, and fails in time exactly by one of
them. -/
structure Whole (s : Source) (limit : Nat) (x : Batch α) : Prop where
  gives : ∀ a, x.Gives limit a → ∀ c ∈ x.calls, ∃ b, (ofCall s c).Gives limit b
  blames : ∀ e, x.Fails limit e → ∃ c ∈ x.calls, (ofCall s c).Fails limit e
  fails : ∀ c ∈ x.calls, ∀ e, (ofCall s c).Fails limit e → ∃ e', x.Fails limit e'

theorem Whole.done (a : α) : (done a).Whole s limit where
  gives := by simp
  blames _ h := by cases h.result
  fails := by simp

theorem Whole.ofCall (s : Source) (limit : Nat) (c : Call) : (ofCall s c).Whole s limit where
  gives a h c' hc' := by
    obtain rfl := List.mem_singleton.1 hc'
    exact ⟨a, h⟩
  blames e h := ⟨c, List.mem_singleton_self c, h⟩
  fails c' hc' e h := by
    obtain rfl := List.mem_singleton.1 hc'
    exact ⟨e, h⟩

theorem Whole.map (h : x.Whole s limit) (f : α → β) : (x.map f).Whole s limit where
  gives b hb := by
    obtain ⟨a, ha, -⟩ := hb.of_map
    exact h.gives a ha
  blames e he := h.blames e he.of_map
  fails c hc e he := by
    obtain ⟨e', he'⟩ := h.fails c hc e he
    exact ⟨e', he'.map f⟩

theorem Whole.both (hx : x.Whole s limit) (hy : y.Whole s limit) : (x.both y).Whole s limit where
  gives := by
    rintro ⟨a, b⟩ hab c hc
    obtain ⟨ha, hb⟩ := hab.of_both
    rcases mem_calls_both.1 hc with hc | hc
    · exact hx.gives a ha c hc
    · exact hy.gives b hb c hc
  blames e he := by
    rcases he.of_both with he | he
    · obtain ⟨c, hc, hfails⟩ := hx.blames e he
      exact ⟨c, mem_calls_both.2 (.inl hc), hfails⟩
    · obtain ⟨c, hc, hfails⟩ := hy.blames e he
      exact ⟨c, mem_calls_both.2 (.inr hc), hfails⟩
  fails c hc e he := by
    rcases mem_calls_both.1 hc with hc | hc
    · obtain ⟨e', he'⟩ := hx.fails c hc e he
      exact he'.both_left y
    · obtain ⟨e', he'⟩ := hy.fails c hc e he
      exact he'.both_right x

theorem Whole.all {ι : Type} {f : ι → Batch α} (h : ∀ i, (f i).Whole s limit) (is : List ι) :
    (all (is.map f)).Whole s limit := by
  induction is with
  | nil => exact .done []
  | cons i is ih => exact ((h i).both ih).map _

/-- Of a batch of which no call fails one late call is enough to make it late. -/
theorem Whole.late (h : x.Whole s limit) {c : Call} (hc : c ∈ x.calls)
    (hlate : (Batch.ofCall s c).Late limit)
    (hnone : ∀ c ∈ x.calls, ∀ e, (Batch.ofCall s c).result ≠ .error e) : x.Late limit := by
  refine late_of_forall_not (fun a ha => ?_) fun e he => ?_
  · obtain ⟨b, hb⟩ := h.gives a ha c hc
    exact hb.not_late hlate
  · obtain ⟨c', hc', hfails⟩ := h.blames e he
    exact hnone c' hc' e hfails.result

end Batch

namespace Resolver

variable {α β : Type} {r : Resolver} {ns name : String} {hint : Option Kind}
  {selector only : Option String} {included link : Bool} {kinds : List IstioKind} {limit : Nat}
  {asked : List Call} {resolved : Answers → Except Failure β}

/-! Every batch of an operation is such a batch. -/

theorem whole_resources {pods : Batch (List Pod)}
    {controllers : ControllerKind → Batch (List Controller)} (hpods : pods.Whole r.source limit)
    (hcontrollers : ∀ k, (controllers k).Whole r.source limit) :
    (resources pods controllers).Whole r.source limit :=
  (hpods.both (.all (fun k => (hcontrollers k).map (k, ·)) fetchOrder)).map _

theorem whole_listIf (wanted : Bool) (k : ControllerKind) :
    (r.listIf wanted k ns).Whole r.source limit := by
  cases wanted with
  | true => exact .ofCall _ _ _
  | false => exact .done []

theorem whole_getIf (wanted : Bool) (k : ControllerKind) :
    (r.getIf wanted k ns name).Whole r.source limit := by
  cases wanted with
  | true => exact .map (.ofCall _ _ _) _
  | false => exact .done []

theorem whole_namespaceResources : (r.namespaceResources ns selector).Whole r.source limit :=
  whole_resources (.ofCall _ _ _) fun k => whole_listIf (r.fetches k) k

theorem whole_workloadResources : (r.workloadResources ns name hint).Whole r.source limit := by
  rw [workloadResources_eq]
  refine whole_resources (.ofCall _ _ _) fun k => ?_
  unfold candidates
  split
  · exact whole_getIf _ k
  · exact whole_listIf _ k

theorem whole_services : (r.services included ns).Whole r.source limit := by
  cases included with
  | true => exact .ofCall _ _ _
  | false => exact .done []

theorem whole_linked : (r.linked link ns kinds).Whole r.source limit := by
  cases link with
  | true => exact .map (.all (fun k => .ofCall _ _ (.istioObjects k ns)) kinds) _
  | false => exact .done []

theorem whole_appMembers : (r.appMembers ns only).Whole r.source limit :=
  .map (.both (.ofCall _ _ _) whole_namespaceResources) _

/-! The three ways in which an operation may end. -/

/-- An operation comes to what it makes of all answers, to a failure of one of its calls, or to the
end of its time, where no call failed before that. -/
inductive AllOrNothing (r : Resolver) (asked : List Call) (resolved : Answers → Except Failure β) :
    Except Failure β → Prop
  | whole {answer : Answers} (h : r.Answered asked answer) :
      AllOrNothing r asked resolved (resolved answer)
  | failed {c : Call} {e : Failure} (hc : c ∈ asked) (h : (r.call c).Fails r.config.limit e) :
      AllOrNothing r asked resolved (.error e)
  | late {c : Call} (hc : c ∈ asked) (h : (r.call c).Late r.config.limit)
      (hnone : ∀ c ∈ asked, ∀ e, ¬(r.call c).Fails r.config.limit e) :
      AllOrNothing r asked resolved (.error (.timeout r.config.limit))

theorem allOrNothing_of_batch {b : Batch α} {result : Except Failure β}
    (hwhole : b.Whole r.source r.config.limit) (hasked : ∀ c, c ∈ b.calls ↔ c ∈ asked)
    (hgives : ∀ answer, r.Answered asked answer →
      (∃ a, b.Gives r.config.limit a) ∧ result = resolved answer)
    (hfails : ∀ e, b.Fails r.config.limit e → result = .error e)
    (hlate : b.Late r.config.limit → result = .error (.timeout r.config.limit)) :
    r.AllOrNothing asked resolved result := by
  rcases b.gives_or_fails_or_late r.config.limit with ⟨a, ha⟩ | ⟨e, he⟩ | hl
  · obtain ⟨answer, hanswer⟩ := exists_answered fun c hc => hwhole.gives a ha c ((hasked c).2 hc)
    rw [(hgives answer hanswer).2]
    exact .whole hanswer
  · obtain ⟨c, hc, hfailed⟩ := hwhole.blames e he
    rw [hfails e he]
    exact .failed ((hasked c).1 hc) hfailed
  · rw [hlate hl]
    have hnone : ∀ c ∈ asked, ∀ e, ¬(r.call c).Fails r.config.limit e := by
      intro c hc e he
      obtain ⟨e', he'⟩ := hwhole.fails c ((hasked c).2 hc) e he
      exact he'.not_late hl
    -- If no call were late either, all would be answered, and the batch with them.
    by_contra hall
    have hanswered : ∀ c ∈ asked, ∃ a, (r.call c).Gives r.config.limit a := by
      intro c hc
      rcases (r.call c).gives_or_fails_or_late r.config.limit with ha | ⟨e, he⟩ | hlatec
      · exact ha
      · exact absurd he (hnone c hc e)
      · exact absurd (.late hc hlatec hnone) hall
    obtain ⟨answer, hanswer⟩ := exists_answered hanswered
    obtain ⟨⟨a, ha⟩, -⟩ := hgives answer hanswer
    exact ha.not_late hl

/-- The same of a run that waits for a batch and goes on from what it gives. -/
theorem allOrNothing_of_fetch {b : Batch α} {f : α → Run β} {q : Progress}
    {value : Answers → α} (hwhole : b.Whole r.source r.config.limit)
    (hasked : ∀ c, c ∈ b.calls ↔ c ∈ asked)
    (hvalue : ∀ answer, r.Answered asked answer → b.Gives r.config.limit (value answer))
    (hresolved : ∀ answer q', r.Answered asked answer → r.fetch b q = (.ok (value answer), q') →
      (f (value answer) q').1 = resolved answer) :
    r.AllOrNothing asked resolved ((r.fetch b >>= f) q).1 := by
  refine allOrNothing_of_batch hwhole hasked (fun answer hanswer => ?_) (fun e he => ?_)
    fun hl => ?_
  · have hgives := hvalue answer hanswer
    obtain ⟨q', hfetch⟩ := Run.waitWithin_of_gives hgives q
    exact ⟨⟨_, hgives⟩,
      (congrArg Prod.fst (Run.bind_apply_of_ok hfetch)).trans (hresolved answer q' hanswer hfetch)⟩
  · obtain ⟨q', hfetch⟩ := Run.waitWithin_of_fails he q
    exact congrArg Prod.fst (Run.bind_apply_of_error hfetch)
  · obtain ⟨q', hfetch⟩ := Run.waitWithin_of_late hl q
    exact congrArg Prod.fst (Run.bind_apply_of_error hfetch)

variable {n : Namespace} {p : Progress}

theorem listWorkloads_allOrNothing (haccessible : r.config.isAccessible ns = true)
    (hn : (r.call (.namespaceInfo ns)).result = .ok (some n)) :
    r.AllOrNothing (r.listCalls ns none ++ linkCalls link ns IstioKind.selecting)
      (fun answer => .ok (answer.workloadList r ns n.info link)) (r.listWorkloads ns link p).1 := by
  obtain ⟨q, hinfo⟩ := namespaceInfo_apply_of_found haccessible hn p
  have hvalue : ∀ answer,
      r.Answered (r.listCalls ns none ++ linkCalls link ns IstioKind.selecting) answer →
      ((r.namespaceResources ns none).both (r.linked link ns IstioKind.selecting)).Gives
        r.config.limit (answer.listed r ns none, answer.linked ns link IstioKind.selecting) := by
    intro answer hanswer
    obtain ⟨hlisted, hlinked⟩ := answered_append_iff.1 hanswer
    exact (gives_listed hlisted).both (gives_linked hlinked)
  unfold listWorkloads
  rw [Run.bind_apply_of_ok hinfo]
  refine allOrNothing_of_fetch (whole_namespaceResources.both whole_linked) (fun c => ?_) hvalue
    fun answer q' _ _ => rfl
  rw [Batch.mem_calls_both, List.mem_append, mem_listCalls_iff, mem_linkCalls_iff]

theorem listApps_allOrNothing (haccessible : r.config.isAccessible ns = true)
    (hn : (r.call (.namespaceInfo ns)).result = .ok (some n)) :
    r.AllOrNothing
      (r.memberCalls ns none ++
        (linkCalls link ns IstioKind.routing ++ linkCalls link ns IstioKind.selecting))
      (fun answer => .ok (answer.appList r ns n.info link)) (r.listApps ns link p).1 := by
  obtain ⟨q, hinfo⟩ := namespaceInfo_apply_of_found haccessible hn p
  have hvalue : ∀ answer,
      r.Answered (r.memberCalls ns none ++
        (linkCalls link ns IstioKind.routing ++ linkCalls link ns IstioKind.selecting)) answer →
      ((r.appMembers ns none).both ((r.linked link ns IstioKind.routing).both
          (r.linked link ns IstioKind.selecting))).Gives r.config.limit
        (answer.members r ns none, answer.linked ns link IstioKind.routing,
          answer.linked ns link IstioKind.selecting) := by
    intro answer hanswer
    obtain ⟨hmembers, hlinked⟩ := answered_append_iff.1 hanswer
    obtain ⟨hrouting, hselecting⟩ := answered_append_iff.1 hlinked
    exact (gives_members hmembers).both ((gives_linked hrouting).both (gives_linked hselecting))
  unfold listApps
  rw [Run.bind_apply_of_ok hinfo]
  refine allOrNothing_of_fetch (whole_appMembers.both (whole_linked.both whole_linked))
    (fun c => ?_) hvalue fun answer q' _ _ => rfl
  rw [Batch.mem_calls_both, Batch.mem_calls_both, List.mem_append, List.mem_append,
    mem_memberCalls_iff, mem_linkCalls_iff, mem_linkCalls_iff]

theorem getApp_allOrNothing (haccessible : r.config.isAccessible ns = true)
    (hn : (r.call (.namespaceInfo ns)).result = .ok (some n)) :
    r.AllOrNothing (r.memberCalls ns (some name))
      (fun answer => answer.app r ns name n.info) (r.getApp ns name p).1 := by
  obtain ⟨q, hinfo⟩ := namespaceInfo_apply_of_found haccessible hn p
  unfold getApp
  rw [Run.bind_apply_of_ok hinfo]
  refine allOrNothing_of_fetch whole_appMembers (fun c => mem_memberCalls_iff)
    (fun answer => gives_members) fun answer q' _ _ => ?_
  unfold Answers.app
  cases (answer.members r ns (some name)).find? name <;> rfl

/-- The statuses of its pods are looked up once the workload is told. -/
theorem getWorkload_of_answered (haccessible : r.config.isAccessible ns = true)
    (hn : (r.call (.namespaceInfo ns)).result = .ok (some n))
    (h : r.Answered (r.seekCalls ns name hint ++ serviceCalls included ns) answer) :
    (r.getWorkload ns name hint included p).1 =
      answer.workload r ns name hint included (r.answers ns name hint included p) := by
  obtain ⟨hsought, hservices⟩ := answered_append_iff.1 h
  obtain ⟨q, hdescribed⟩ := described_apply_of_gives haccessible ⟨n, hn⟩ (gives_sought hsought)
    (gives_services hservices) p
  unfold Answers.workload
  cases hfound : (answer.sought r ns name hint).workload? r.config.sidecarKey name hint with
  | none =>
    have hnone : r.found (answer.sought r ns name hint) name hint q =
        (.error (.notFound "Workload" name), q) := by
      unfold Resolver.found
      rw [hfound]
      rfl
    rw [Run.bind_apply_of_error hnone] at hdescribed
    rw [getWorkload_eq_bind, Run.bind_apply_of_error hdescribed]
  | some w =>
    obtain ⟨q', hw⟩ := (found_apply_ok_iff (p := q)).2 hfound
    rw [Run.bind_apply_of_ok hw] at hdescribed
    rw [getWorkload_of_described hdescribed, answers_of_described hdescribed]

theorem getWorkload_allOrNothing (haccessible : r.config.isAccessible ns = true)
    (hn : (r.call (.namespaceInfo ns)).result = .ok (some n)) :
    r.AllOrNothing (r.seekCalls ns name hint ++ serviceCalls included ns)
      (fun answer => answer.workload r ns name hint included (r.answers ns name hint included p))
      (r.getWorkload ns name hint included p).1 := by
  obtain ⟨q, hinfo⟩ := namespaceInfo_apply_of_found haccessible hn p
  have hvalue : ∀ answer,
      r.Answered (r.seekCalls ns name hint ++ serviceCalls included ns) answer →
      ((r.workloadResources ns name hint).both (r.services included ns)).Gives r.config.limit
        (answer.sought r ns name hint, answer.services ns included) := by
    intro answer hanswer
    obtain ⟨hsought, hservices⟩ := answered_append_iff.1 hanswer
    exact (gives_sought hsought).both (gives_services hservices)
  have hresult : ∀ answer,
      r.Answered (r.seekCalls ns name hint ++ serviceCalls included ns) answer →
      (r.getWorkload ns name hint included p).1 =
        answer.workload r ns name hint included (r.answers ns name hint included p) :=
    fun answer => getWorkload_of_answered haccessible hn
  unfold getWorkload at hresult ⊢
  rw [Run.bind_apply_of_ok hinfo] at hresult ⊢
  refine allOrNothing_of_fetch (whole_workloadResources.both whole_services) (fun c => ?_) hvalue
    fun answer q' hanswer hfetch => ?_
  · rw [Batch.mem_calls_both, List.mem_append, mem_seekCalls_iff, mem_serviceCalls_iff]
  · exact (congrArg Prod.fst (Run.bind_apply_of_ok hfetch)).symm.trans (hresult answer hanswer)

/-- Workloads and apps are told from the answers to all calls or not at all. Over a link no call but
a patch is told that there is no such object, so that an operation says so only of its own. -/
theorem fetched_whole_or_not (haccessible : r.config.isAccessible ns = true)
    (hn : (r.call (.namespaceInfo ns)).result = .ok (some n)) (p : Progress) :
    (∀ link, r.AllOrNothing (r.listCalls ns none ++ linkCalls link ns IstioKind.selecting)
      (fun answer => .ok (answer.workloadList r ns n.info link)) (r.listWorkloads ns link p).1) ∧
    (∀ name hint included,
      r.AllOrNothing (r.seekCalls ns name hint ++ serviceCalls included ns)
        (fun answer => answer.workload r ns name hint included (r.answers ns name hint included p))
        (r.getWorkload ns name hint included p).1) ∧
    (∀ link, r.AllOrNothing
      (r.memberCalls ns none ++
        (linkCalls link ns IstioKind.routing ++ linkCalls link ns IstioKind.selecting))
      (fun answer => .ok (answer.appList r ns n.info link)) (r.listApps ns link p).1) ∧
    (∀ app, r.AllOrNothing (r.memberCalls ns (some app))
      (fun answer => answer.app r ns app n.info) (r.getApp ns app p).1) ∧
    ∀ link istiod openshift, r.source = .live link istiod openshift → ∀ c e,
      (r.call c).result = .error e → e.isNotFound = true →
        ∃ kind ns name body, c = .patch kind ns name body := by
  refine ⟨fun link => listWorkloads_allOrNothing haccessible hn,
    fun name hint included => getWorkload_allOrNothing haccessible hn,
    fun link => listApps_allOrNothing haccessible hn,
    fun app => getApp_allOrNothing haccessible hn,
    fun link istiod openshift hlive c e hfails hnotFound => ?_⟩
  unfold call at hfails
  rw [hlive] at hfails
  exact Source.patch_of_live_notFound hfails hnotFound

/-- A shop where one kind cannot be listed. -/
def brokenShop : Resolver where
  config := {}
  source := .live (some (shopServer.set [("fail", .record [
    ("list statefulsets", .record [("code", .int 500)])])])) {} false

/-- All else would be there. -/
theorem brokenShop_fails : ∃ c ∈ brokenShop.listCalls "shop" none ++ [], ∃ e,
    (brokenShop.call c).Fails 30000 e ∧
      (brokenShop.listWorkloads "shop" false {}).1 = .error e := by
  have hnamespace : (brokenShop.call (.namespaceInfo "shop")).result =
      .ok (some ⟨{ name := some "shop" }⟩) := rfl
  have hstatefulSets :
      .controllers .statefulSet "shop" ∈ brokenShop.listCalls "shop" none ++ [] := by
    simp [listCalls, fetches, brokenShop, Config.includes]
  have hfails : (brokenShop.call (.controllers .statefulSet "shop")).Fails 30000 (.request (.api
      { message := "list statefulsets failed", reason := "Failure", code := 500 })) := ⟨rfl, rfl⟩
  obtain ⟨hlist, -⟩ := fetched_whole_or_not rfl hnamespace {}
  have hlisted := hlist false
  generalize (brokenShop.listWorkloads "shop" false {}).1 = result at hlisted ⊢
  cases hlisted with
  | whole h => exact absurd hfails ((h _ hstatefulSets).not_fails _)
  | failed hc h => exact ⟨_, hc, _, h, rfl⟩
  | late hc h hnone => exact absurd hfails (hnone _ hstatefulSets _)

end Resolver

end WorkloadMap
