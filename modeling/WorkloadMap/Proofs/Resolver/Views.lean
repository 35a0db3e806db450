import WorkloadMap.Cluster.Client
import WorkloadMap.Proofs.Resolver.Detail
import WorkloadMap.Proofs.Resolver.Fetch

/-!
Two views of one namespace: the listing of all workloads and the details of one of them. Main
statement: asked for a name, the detail view tells of what is listed under it, and of nothing else.
-/
namespace WorkloadMap.Resolver

variable {r : Resolver} {ns name : String} {cluster : Resources}

theorem Sees.namespaceInfo_apply (h : r.Sees ns name cluster)
    (haccessible : r.config.isAccessible ns = true) (p : Progress) :
    ∃ info p', r.namespaceInfo ns p = (.ok info, p') :=
  namespaceInfo_apply_ok_iff.2 ⟨haccessible, h.namespaceInfo⟩

theorem gives_linked_false (r : Resolver) (ns : String) (kinds : List IstioKind) :
    (r.linked false ns kinds).Gives r.config.limit [] :=
  .done _ _

theorem gives_services_false (r : Resolver) (ns : String) :
    (r.services false ns).Gives r.config.limit [] :=
  .done _ _

theorem Sees.listWorkloads_apply (h : r.Sees ns name cluster)
    (haccessible : r.config.isAccessible ns = true) (p : Progress) :
    ∃ info p', r.listWorkloads ns false p =
      (.ok ⟨info, ((cluster.only r.fetches).workloads r.config.sidecarKey none).map
        (WorkloadItem.ofWorkload r.config.appLabel r.config.versionLabel [])⟩, p') := by
  obtain ⟨info, p₁, hinfo⟩ := h.namespaceInfo_apply haccessible p
  have hbatch := h.namespaceResources.both (gives_linked_false r ns IstioKind.selecting)
  obtain ⟨p₂, hfetch⟩ := Run.waitWithin_of_gives hbatch p₁
  refine ⟨info, p₂, ?_⟩
  unfold listWorkloads Resolver.fetch
  rw [Run.bind_apply_of_ok hinfo, Run.bind_apply_of_ok hfetch]
  rfl

theorem Sees.described_apply (h : r.Sees ns name cluster)
    (haccessible : r.config.isAccessible ns = true)
    (hjobs : r.config.includes (.controller .cronJob) = true →
      r.config.includes (.controller .job) = true) (p : Progress) :
    ∃ q, r.described ns name none false p =
      (r.found ((cluster.only r.fetches).narrowed name) name none >>= fun w => pure (w, [])) q :=
  described_apply_of_gives haccessible h.namespaceInfo (h.workloadResources hjobs)
    (gives_services_false r ns) p

/-- What is fetched for a name resolves it as the whole namespace does. -/
theorem Sees.getWorkload_of_notMem (h : r.Sees ns name cluster) (hnamed : cluster.Named)
    (haccessible : r.config.isAccessible ns = true)
    (hjobs : r.config.includes (.controller .cronJob) = true →
      r.config.includes (.controller .job) = true)
    (hnone : ∀ w ∈ (cluster.only r.fetches).workloads r.config.sidecarKey none, w.name ≠ name)
    (p : Progress) :
    (r.getWorkload ns name none false p).1 = .error (.notFound "Workload" name) := by
  obtain ⟨q, hdescribed⟩ := h.described_apply haccessible hjobs p
  have hfound : ((cluster.only r.fetches).narrowed name).workload? r.config.sidecarKey name none =
      none := by
    rw [Resources.workload?_narrowed hnamed.only]
    refine Option.eq_none_iff_forall_ne_some.2 fun w hw => ?_
    have hmem := Resources.workload?_eq_some_iff.1 hw
    exact hnone w hmem.1 hmem.2
  have hthrown : r.found ((cluster.only r.fetches).narrowed name) name none q =
      (.error (.notFound "Workload" name), q) := by
    unfold found
    rw [hfound]
    rfl
  rw [Run.bind_apply_of_error hthrown] at hdescribed
  rw [getWorkload_eq_bind, Run.bind_apply_of_error hdescribed]

theorem Sees.getWorkload_of_mem (h : r.Sees ns name cluster) (hnamed : cluster.Named)
    (haccessible : r.config.isAccessible ns = true)
    (hjobs : r.config.includes (.controller .cronJob) = true →
      r.config.includes (.controller .job) = true) {w : Workload}
    (hw : w ∈ (cluster.only r.fetches).workloads r.config.sidecarKey none) (hname : w.name = name)
    (p : Progress) : ∃ pods, (r.getWorkload ns name none false p).1 = .ok { w with pods } ∧
      pods.length = w.pods.length := by
  obtain ⟨q, hdescribed⟩ := h.described_apply haccessible hjobs p
  have hfound : ((cluster.only r.fetches).narrowed name).workload? r.config.sidecarKey name none =
      some w := by
    rw [Resources.workload?_narrowed hnamed.only]
    exact Resources.workload?_eq_some_iff.2 ⟨hw, hname⟩
  obtain ⟨q', hreturned⟩ := (found_apply_ok_iff (p := q)).2 hfound
  rw [Run.bind_apply_of_ok hreturned] at hdescribed
  exact ⟨_, getWorkload_of_described hdescribed, by simp [length_lookUps]⟩

/-- For a cluster that it sees, the detail view finds a name exactly if the listing has an item of
it, and then tells of a workload that the listing would summarize as that item. -/
theorem Sees.views_agree (h : r.Sees ns name cluster) (hnamed : cluster.Named)
    (haccessible : r.config.isAccessible ns = true)
    (hjobs : r.config.includes (.controller .cronJob) = true →
      r.config.includes (.controller .job) = true) (p p' : Progress) :
    ∃ list, (r.listWorkloads ns false p).1 = .ok list ∧
      ((r.getWorkload ns name none false p').1 = .error (.notFound "Workload" name) ↔
        ∀ item ∈ list.workloads, item.name ≠ name) ∧
      ∀ item ∈ list.workloads, item.name = name →
        ∃ w, (r.getWorkload ns name none false p').1 = .ok w ∧
          WorkloadItem.ofWorkload r.config.appLabel r.config.versionLabel [] w = item := by
  obtain ⟨info, p₁, hlist⟩ := h.listWorkloads_apply haccessible p
  refine ⟨_, congrArg Prod.fst hlist, ?_, ?_⟩
  · constructor
    · intro hnone item hitem hname
      obtain ⟨w, hw, rfl⟩ := List.mem_map.1 hitem
      have hdetail := h.getWorkload_of_mem hnamed haccessible hjobs hw hname p'
      obtain ⟨pods, hget, _⟩ := hdetail
      rw [hget] at hnone
      cases hnone
    · intro hnone
      apply h.getWorkload_of_notMem hnamed haccessible hjobs
      intro w hw
      exact hnone _ (List.mem_map_of_mem hw)
  · intro item hitem hname
    obtain ⟨w, hw, rfl⟩ := List.mem_map.1 hitem
    have hdetail := h.getWorkload_of_mem hnamed haccessible hjobs hw hname p'
    obtain ⟨pods, hget, hlength⟩ := hdetail
    refine ⟨_, hget, ?_⟩
    simp only [WorkloadItem.ofWorkload, hlength]

/-- An object of the shop as a server holds it, with the labels of its template. -/
def shopObject (name : String) (metadata template : List (String × Json)) : Json :=
  .record [
    ("metadata", .record ([("name", .text name), ("namespace", .text "shop")] ++ metadata)),
    ("spec", .record [
      ("template", .record [("metadata", .record [("labels", .record template)])])])]

def shopOwner (kind name : String) : String × Json :=
  ("ownerReferences", .array [
    .record [("kind", .text kind), ("name", .text name), ("controller", .bool true)]])

def shopServer : Server :=
  let web := [("app", Json.text "web")]
  let report := [("app", Json.text "report")]
  let backup := [("app", Json.text "backup")]
  .ofMembers [
    ("namespaces", .array [.record [("metadata", .record [("name", .text "shop")])]]),
    ("pods", .array [
      shopObject "web-1-a" [("labels", .record web), shopOwner "ReplicaSet" "web-1"] [],
      shopObject "report-1-a" [("labels", .record report), shopOwner "Job" "report-1"] [],
      shopObject "backup-1-a" [("labels", .record backup), shopOwner "Job" "backup-1"] [],
      shopObject "toolbox" [] []]),
    ("deployments", .array [shopObject "web" [] web]),
    ("replicasets", .array [shopObject "web-1" [shopOwner "Deployment" "web"] web]),
    ("jobs", .array [
      shopObject "report-1" [shopOwner "CronJob" "report"] report,
      shopObject "backup-1" [shopOwner "CronJob" "backup"] backup]),
    ("cronjobs", .array [shopObject "report" [] []])]

def shopResolver : Resolver where
  config := {}
  source := .live (some shopServer) {} false

theorem shopResolver_sees : shopResolver.Sees "shop" "web" Resources.shop where
  namespaceInfo := ⟨⟨{ name := some "shop" }⟩, rfl⟩
  pods := ⟨rfl, rfl⟩
  list := by
    intro k hk
    cases k
    case deploymentConfig => cases hk
    all_goals exact ⟨rfl, rfl⟩
  get := by
    intro k hk
    cases k
    case deploymentConfig => cases hk
    all_goals exact ⟨rfl, rfl⟩

theorem shop_views_agree :
    shopResolver.Sees "shop" "web" Resources.shop ∧ Resources.shop.Named ∧
      ∃ list, (shopResolver.listWorkloads "shop" false {}).1 = .ok list ∧
        ((shopResolver.getWorkload "shop" "web" none false {}).1 =
            .error (.notFound "Workload" "web") ↔
          ∀ item ∈ list.workloads, item.name ≠ "web") ∧
        ∀ item ∈ list.workloads, item.name = "web" →
          ∃ w, (shopResolver.getWorkload "shop" "web" none false {}).1 = .ok w ∧
            WorkloadItem.ofWorkload "app" "version" [] w = item :=
  have hnamed : Resources.shop.Named := by decide +kernel
  ⟨shopResolver_sees, hnamed, shopResolver_sees.views_agree hnamed rfl (fun _ => rfl) {} {}⟩

end WorkloadMap.Resolver
