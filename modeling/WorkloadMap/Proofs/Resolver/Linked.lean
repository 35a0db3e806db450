import WorkloadMap.Proofs.Istio.Selecting
import WorkloadMap.Proofs.Resolver.Result
import WorkloadMap.Proofs.Resolver.Whole

/-!
Listings with references to Istio objects beside those without. Main statement: references are all
that linking adds, those of a workload are to the objects that select it, and linking adds nothing
where Istio is not installed, unless that is told too late.
-/
namespace WorkloadMap

def WorkloadList.unlinked (l : WorkloadList) : WorkloadList :=
  { l with workloads := l.workloads.map fun item => { item with istioReferences := [] } }

def AppList.unlinked (l : AppList) : AppList :=
  { l with apps := l.apps.map fun item => { item with istioReferences := [] } }

theorem AppMembers.references_nil (members : AppMembers) : members.references [] [] = [] := by
  have hnone : members.workloads.flatMap (fun _ => ([] : List IstioReference)) = [] := by simp
  simp [references, hnone]

namespace Resolver

variable {α β γ : Type} {r : Resolver} {ns : String} {kinds : List IstioKind}

theorem unlinked_tellWorkloads (r : Resolver) (selecting : List IstioObject) (info : NamespaceInfo)
    (resources : Resources) : (r.tellWorkloads selecting info resources).unlinked =
      r.tellWorkloads [] info resources := by
  unfold tellWorkloads WorkloadList.unlinked
  rw [List.map_map]
  rfl

theorem unlinked_tellApps (links : List IstioObject × List IstioObject) (info : NamespaceInfo)
    (apps : NameMap AppMembers) :
    (tellApps links info apps).unlinked = tellApps ([], []) info apps := by
  simp [tellApps, AppList.unlinked, AppItem.ofMembers, AppMembers.references_nil]

theorem gives_apps_unlinked (r : Resolver) (ns : String) :
    ((r.linked false ns IstioKind.routing).both (r.linked false ns IstioKind.selecting)).Gives
      r.config.limit ([], []) :=
  (gives_linked_false r ns _).both (gives_linked_false r ns _)

/-- Without its links a listing comes to what it is with them, but for what they tell. -/
theorem listing_unlinked {x : Batch α} {links links' : Batch β} {b : β}
    {tell : β → NamespaceInfo → α → γ} {erase : γ → γ} {told : γ}
    (herase : ∀ b' info a, erase (tell b' info a) = tell b info a)
    (h' : links'.Gives r.config.limit b) (h : r.listing ns x links tell = .ok told) :
    r.listing ns x links' tell = .ok (erase told) := by
  obtain ⟨info, a, b', hinfo, ha, -, rfl⟩ := listing_eq_ok_iff.1 h
  exact listing_eq_ok_iff.2 ⟨info, a, b, hinfo, ha, h', herase b' info a⟩

/-- What is linked was fetched kind by kind. -/
theorem exists_fetched {b : List IstioObject}
    (h : (r.linked true ns kinds).Gives r.config.limit b) :
    ∃ fetched : IstioKind → List IstioObject,
      (∀ k ∈ kinds, (r.call (.istioObjects k ns)).Gives r.config.limit (fetched k)) ∧
        b = kinds.flatMap fetched := by
  have hcalls : ∀ c ∈ linkCalls true ns kinds, ∃ a, (r.call c).Gives r.config.limit a :=
    fun c hc => whole_linked.gives b h c (mem_linkCalls_iff.2 hc)
  obtain ⟨answer, hanswer⟩ := exists_answered hcalls
  refine ⟨fun k => answer (.istioObjects k ns), fun k hk => ?_, ?_⟩
  · exact hanswer _ (List.mem_map_of_mem hk)
  · exact Except.ok.inj (h.result.symm.trans (gives_linked hanswer).result)

theorem mem_calls_linked {c : Call} :
    c ∈ (r.linked true ns kinds).calls ↔ ∃ k ∈ kinds, c = .istioObjects k ns := by
  rw [mem_linkCalls_iff]
  simp only [linkCalls, if_true, List.mem_map, @eq_comm _ c]

theorem gives_linked_nil
    (h : ∀ k ∈ kinds, (r.call (.istioObjects k ns)).Gives r.config.limit ([] : List IstioObject)) :
    (r.linked true ns kinds).Gives r.config.limit [] := by
  have hall := (Batch.Gives.all h).map List.flatten
  have hnil : (kinds.map fun _ => ([] : List IstioObject)).flatten = [] := by simp
  exact hnil ▸ hall

/-- Links that turn out to be none add nothing to a listing, but may take too long. -/
theorem listing_of_no_objects {x : Batch α} {links links' : Batch β} {b : β}
    {tell : β → NamespaceInfo → α → γ} (hwhole : links.Whole r.source r.config.limit)
    (hcalls : ∀ c, c ∈ links.calls ↔ ∃ k ∈ kinds, c = .istioObjects k ns)
    (hgives : (∀ k ∈ kinds, (r.call (.istioObjects k ns)).Gives r.config.limit
      ([] : List IstioObject)) → links.Gives r.config.limit b)
    (h' : links'.Gives r.config.limit b)
    (hnone : ∀ info, r.namespaceResult ns = .ok info →
      ∀ k ∈ kinds, (r.call (.istioObjects k ns)).result = .ok ([] : List IstioObject)) :
    r.listing ns x links tell = r.listing ns x links' tell ∨
      (∃ k ∈ kinds, (r.call (.istioObjects k ns)).Late r.config.limit) ∧
        r.listing ns x links tell = .error (.timeout r.config.limit) := by
  cases hinfo : r.namespaceResult ns with
  | error e =>
    exact .inl ((listing_of_namespace_error hinfo).trans (listing_of_namespace_error hinfo).symm)
  | ok info =>
  have hnone := hnone info hinfo
  by_cases hlate : ∃ k ∈ kinds, (r.call (.istioObjects k ns)).Late r.config.limit
  · obtain ⟨k, hk, hklate⟩ := hlate
    have hlinks : links.Late r.config.limit := by
      refine hwhole.late ((hcalls _).2 ⟨k, hk, rfl⟩) hklate fun c hc e he => ?_
      obtain ⟨k', hk', rfl⟩ := (hcalls c).1 hc
      cases (hnone k' hk').symm.trans he
    exact (listing_of_late hlinks h').imp_right (⟨⟨k, hk, hklate⟩, ·⟩)
  · refine .inl (listing_congr (hgives fun k hk => ⟨hnone k hk, ?_⟩) h')
    exact Bool.of_not_eq_false fun hklate => hlate ⟨k, hk, hklate⟩

end Resolver

namespace Session

variable {s : Session} {ns : String} {kinds : List IstioKind}

def workloadListing (s : Session) (ns : String) (link : Bool) : Except Failure WorkloadList :=
  (s.run fun r => r.listWorkloads ns link).1.result

def appListing (s : Session) (ns : String) (link : Bool) : Except Failure AppList :=
  (s.run fun r => r.listApps ns link).1.result

/-- The server answers the listing of a kind with the code 404. -/
def Lacks (s : Session) (ns : String) (k : IstioKind) : Prop :=
  ∃ server e, s.link = some server ∧
    (server.reply (.list k.endpoint ns none)).body? = .error e ∧ e.code = 404

/-- The answer for one of the kinds is not there by the end of the time. -/
def IsLate (s : Session) (ns : String) (kinds : List IstioKind) : Prop :=
  ∃ k ∈ kinds, (Client.istioObjects s.link k ns).arrival.isWithin s.config.limit = false

/-- How the listings with references go with those without. -/
structure LinksApart (s : Session) (ns : String) : Prop where
  workloads : ∀ list, s.workloadListing ns true = .ok list →
    s.workloadListing ns false = .ok list.unlinked
  apps : ∀ list, s.appListing ns true = .ok list → s.appListing ns false = .ok list.unlinked
  references : ∀ list, s.workloadListing ns true = .ok list →
    ∃ fetched : IstioKind → List IstioObject,
      (∀ k ∈ IstioKind.selecting, (Client.istioObjects s.link k ns).result = .ok (fetched k)) ∧
      ∀ item ∈ list.workloads, item.istioReferences =
        ((IstioKind.selecting.flatMap fetched).filter fun o => o.Selects item.labels).map
          (·.reference)
  workloadsWithout : (∀ k ∈ IstioKind.selecting, s.Lacks ns k) →
    s.workloadListing ns true = s.workloadListing ns false ∨
      s.IsLate ns IstioKind.selecting ∧
        s.workloadListing ns true = .error (.timeout s.config.limit)
  appsWithout : (∀ k ∈ IstioKind.all, s.Lacks ns k) →
    s.appListing ns true = s.appListing ns false ∨
      s.IsLate ns IstioKind.all ∧ s.appListing ns true = .error (.timeout s.config.limit)

/-- The cache has no part in Istio objects. -/
theorem outcome_istioObjects (s : Session) (k : IstioKind) (ns : String) :
    s.source.outcome (.istioObjects k ns) = Client.istioObjects s.link k ns := by
  unfold source
  cases s.usesCache with
  | false => rfl
  | true => exact Source.outcome_throughCache_of_none rfl

theorem call_istioObjects (s : Session) (k : IstioKind) (ns : String) :
    (s.resolver.call (.istioObjects k ns)).result = (Client.istioObjects s.link k ns).result ∧
      (s.resolver.call (.istioObjects k ns)).arrival =
        (Client.istioObjects s.link k ns).arrival := by
  rw [← outcome_istioObjects]
  exact ⟨rfl, rfl⟩

/-- A namespace that was read has a name that can be put into an address. -/
theorem isAddress_of_namespaceResult {info : NamespaceInfo}
    (h : s.resolver.namespaceResult ns = .ok info) : Client.isAddress ns = true := by
  unfold Resolver.namespaceResult at h
  split at h
  next =>
    have hread : (s.resolver.source.outcome (.namespaceInfo ns)).result =
        (s.namespaceRead ns).result := congrArg Outcome.result (s.outcome_namespaceInfo ns)
    rw [hread] at h
    cases hfound : (s.namespaceRead ns).result with
    | error e => simp [hfound, Except.bind] at h
    | ok found =>
      have hsent : s.namespaceRequests ns ≠ [] := by simp [namespaceRequests_of_ok hfound]
      unfold namespaceRequests at hsent
      split at hsent
      next hsendable => exact ((Bool.and_eq_true _ _).to_iff.1 hsendable).2
      next => exact absurd rfl hsent
  next => cases h

/-- Where Istio is not installed there are no objects of it. -/
theorem Lacks.result {k : IstioKind} (h : s.Lacks ns k) (hns : Client.isAddress ns = true) :
    (Client.istioObjects s.link k ns).result = .ok [] := by
  obtain ⟨server, e, hlink, hreply, hcode⟩ := h
  unfold Client.istioObjects
  rw [hlink, hns]
  simp [Client.outcome, Client.exchange, hreply, hcode]

theorem result_of_lacks {info : NamespaceInfo} (hinfo : s.resolver.namespaceResult ns = .ok info)
    (h : ∀ k ∈ kinds, s.Lacks ns k) : ∀ k ∈ kinds,
      (s.resolver.call (.istioObjects k ns)).result = .ok ([] : List IstioObject) :=
  fun k hk => (s.call_istioObjects k ns).1.trans
    ((h k hk).result (isAddress_of_namespaceResult hinfo))

theorem isLate_of_call
    (h : ∃ k ∈ kinds, (s.resolver.call (.istioObjects k ns)).Late s.config.limit) :
    s.IsLate ns kinds := by
  obtain ⟨k, hk, hlate⟩ := h
  exact ⟨k, hk, (s.call_istioObjects k ns).2 ▸ hlate⟩

theorem workloadListing_eq (s : Session) (ns : String) (link : Bool) :
    s.workloadListing ns link = s.resolver.listing ns (s.resolver.namespaceResources ns none)
      (s.resolver.linked link ns IstioKind.selecting) s.resolver.tellWorkloads :=
  s.resolver.fst_listWorkloads ns link _

theorem appListing_eq (s : Session) (ns : String) (link : Bool) :
    s.appListing ns link = s.resolver.listing ns (s.resolver.appMembers ns none)
      ((s.resolver.linked link ns IstioKind.routing).both
        (s.resolver.linked link ns IstioKind.selecting)) Resolver.tellApps :=
  s.resolver.fst_listApps ns link _

/-- Linking adds references, and nothing else, to what is listed. -/
theorem linksApart (s : Session) (ns : String) : s.LinksApart ns where
  workloads list h := by
    rw [workloadListing_eq] at h ⊢
    exact Resolver.listing_unlinked (Resolver.unlinked_tellWorkloads s.resolver)
      (Resolver.gives_linked_false s.resolver ns _) h
  apps list h := by
    rw [appListing_eq] at h ⊢
    exact Resolver.listing_unlinked Resolver.unlinked_tellApps
      (Resolver.gives_apps_unlinked s.resolver ns) h
  references list h := by
    rw [workloadListing_eq] at h
    obtain ⟨info, resources, selecting, -, -, hselecting, rfl⟩ := Resolver.listing_eq_ok_iff.1 h
    obtain ⟨fetched, hfetched, rfl⟩ := Resolver.exists_fetched hselecting
    refine ⟨fetched, fun k hk => ?_, fun item hitem => ?_⟩
    · exact (s.call_istioObjects k ns).1.symm.trans (hfetched k hk).result
    · obtain ⟨w, -, rfl⟩ := List.mem_map.1 hitem
      refine congrArg (List.map _) (List.filter_congr fun o _ => ?_)
      exact Bool.eq_iff_iff.2 (IstioObject.selectsWorkload_iff.trans decide_eq_true_iff.symm)
  workloadsWithout h := by
    rw [workloadListing_eq, workloadListing_eq]
    refine Or.imp_right (.imp_left isLate_of_call) (Resolver.listing_of_no_objects
      Resolver.whole_linked (fun _ => Resolver.mem_calls_linked) Resolver.gives_linked_nil
      (Resolver.gives_linked_false s.resolver ns _) ?_)
    exact fun info hinfo => result_of_lacks hinfo h
  appsWithout h := by
    have hcalls : ∀ c, c ∈ ((s.resolver.linked true ns IstioKind.routing).both
        (s.resolver.linked true ns IstioKind.selecting)).calls ↔
          ∃ k ∈ IstioKind.all, c = .istioObjects k ns := by
      intro c
      rw [Batch.mem_calls_both, Resolver.mem_calls_linked, Resolver.mem_calls_linked, or_comm]
      simp only [IstioKind.all, List.mem_append, or_and_right, exists_or]
    have hgives : (∀ k ∈ IstioKind.all, (s.resolver.call (.istioObjects k ns)).Gives
        s.resolver.config.limit ([] : List IstioObject)) →
          ((s.resolver.linked true ns IstioKind.routing).both
            (s.resolver.linked true ns IstioKind.selecting)).Gives
              s.resolver.config.limit ([], []) := by
      intro hall
      have hrouting : (s.resolver.linked true ns IstioKind.routing).Gives
          s.resolver.config.limit [] :=
        Resolver.gives_linked_nil fun k hk => hall k (List.mem_append_right _ hk)
      have hselecting : (s.resolver.linked true ns IstioKind.selecting).Gives
          s.resolver.config.limit [] :=
        Resolver.gives_linked_nil fun k hk => hall k (List.mem_append_left _ hk)
      exact hrouting.both hselecting
    rw [appListing_eq, appListing_eq]
    refine Or.imp_right (.imp_left isLate_of_call) (Resolver.listing_of_no_objects
      (Resolver.whole_linked.both Resolver.whole_linked) hcalls hgives
      (Resolver.gives_apps_unlinked s.resolver ns) ?_)
    exact fun info hinfo => result_of_lacks hinfo h

/-- A shop without Istio, where that is told of one kind only after the time is over. -/
def hesitantShop : Session where
  config := {}
  link := some (Resolver.shopServer.set [
    ("fail", .record (IstioKind.all.map fun k =>
      (Request.key (.list k.endpoint "shop" none), .record [("code", .int 404)]))),
    ("delay_ms", .record [("list gateways", .int 60000)])])
  openshift := false
  cache := { patterns := [] }
  usesCache := false

theorem hesitantShop_timesOut : (∀ k ∈ IstioKind.all, hesitantShop.Lacks "shop" k) ∧
    (∃ list, hesitantShop.workloadListing "shop" false = .ok list) ∧
    hesitantShop.workloadListing "shop" true = .error (.timeout 30000) := by
  refine ⟨fun k _ => ?_, ⟨_, rfl⟩, rfl⟩
  cases k <;> exact ⟨_, _, rfl, rfl, rfl⟩

end Session

end WorkloadMap
