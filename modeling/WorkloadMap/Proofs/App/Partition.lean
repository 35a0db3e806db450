import WorkloadMap.Proofs.App.Group
import WorkloadMap.Proofs.Resolver.Result
import WorkloadMap.Proofs.Resolver.Views

/-!
Apps as parts of a namespace. What is filed under a name has it as its value of the label, whatever
the pods were selected by. Main statement: the apps of a namespace part its services and workloads
by their values of the label, and an app tells of those alone that have its name as their value.
-/
namespace WorkloadMap

namespace AppMembers

variable {label name : String} {services : List Service} {workloads : List Workload}
  {apps : NameMap AppMembers} {members : AppMembers}

/-- Each app has the services and workloads of its value, as they stood, and what has a value is
nowhere but in the app of that name. -/
structure Parts (label : String) (services : List Service) (workloads : List Workload)
    (apps : NameMap AppMembers) : Prop where
  ascending : apps.entries.Pairwise fun a b => a.1 < b.1
  inhabited : ∀ e ∈ apps.entries, e.2.services ≠ [] ∨ e.2.workloads ≠ []
  servicesOf : ∀ e ∈ apps.entries,
    e.2.services = services.filter fun s => appOf label s == some e.1
  workloadsOf : ∀ e ∈ apps.entries,
    e.2.workloads = workloads.filter fun w => w.labels.find? label == some e.1
  serviceIn : ∀ s ∈ services, ∀ value, appOf label s = some value →
    ∀ name, (∃ members, (name, members) ∈ apps.entries ∧ s ∈ members.services) ↔ name = value
  workloadIn : ∀ w ∈ workloads, ∀ value, w.labels.find? label = some value →
    ∀ name, (∃ members, (name, members) ∈ apps.entries ∧ w ∈ members.workloads) ↔ name = value

theorem mem_entries_group_iff : (name, members) ∈ (group label none services workloads).entries ↔
    members = ⟨services.filter fun s => appOf label s == some name,
      workloads.filter fun w => w.labels.find? label == some name⟩ ∧
      (members.services ≠ [] ∨ members.workloads ≠ []) := by
  rw [NameMap.mem_entries_iff, find?_group rfl, ofLists?_eq_some_iff]
  exact and_congr_right fun h => by rw [h]

/-- What has a value is in the app of that name alone, if each app has what has its name as its
value. -/
theorem exists_mem_part_iff {α : Type} {file : α → Option String} {as : List α} {a : α}
    {part : AppMembers → List α} {value : String}
    (hparts : ∀ e ∈ apps.entries, part e.2 = as.filter fun a => file a == some e.1) (ha : a ∈ as)
    (hvalue : file a = some value) (hfound : ∃ members, (value, members) ∈ apps.entries) :
    (∃ members, (name, members) ∈ apps.entries ∧ a ∈ part members) ↔ name = value := by
  constructor
  · rintro ⟨members, hmembers, hmem⟩
    rw [hparts _ hmembers] at hmem
    have hname : file a = some name := by simpa using (List.mem_filter.1 hmem).2
    exact Option.some.inj (hname.symm.trans hvalue)
  · rintro rfl
    obtain ⟨members, hmembers⟩ := hfound
    refine ⟨members, hmembers, ?_⟩
    rw [hparts _ hmembers]
    exact List.mem_filter.2 ⟨ha, beq_iff_eq.2 hvalue⟩

theorem parts_group (label : String) (services : List Service) (workloads : List Workload) :
    Parts label services workloads (group label none services workloads) := by
  have hservices : ∀ e ∈ (group label none services workloads).entries,
      e.2.services = services.filter fun s => appOf label s == some e.1 := fun e he => by
    rw [(mem_entries_group_iff.1 he).1]
  have hworkloads : ∀ e ∈ (group label none services workloads).entries,
      e.2.workloads = workloads.filter fun w => w.labels.find? label == some e.1 := fun e he => by
    rw [(mem_entries_group_iff.1 he).1]
  refine ⟨NameMap.ascending _, fun e he => (mem_entries_group_iff.1 he).2, hservices, hworkloads,
    fun s hs value hvalue name => exists_mem_part_iff hservices hs hvalue ?_,
    fun w hw value hvalue name => exists_mem_part_iff hworkloads hw hvalue ?_⟩
  · have hmem : s ∈ services.filter fun s => appOf label s == some value :=
      List.mem_filter.2 ⟨hs, beq_iff_eq.2 hvalue⟩
    exact ⟨_, mem_entries_group_iff.2 ⟨rfl, .inl (List.ne_nil_of_mem hmem)⟩⟩
  · have hmem : w ∈ workloads.filter fun w => w.labels.find? label == some value :=
      List.mem_filter.2 ⟨hw, beq_iff_eq.2 hvalue⟩
    exact ⟨_, mem_entries_group_iff.2 ⟨rfl, .inr (List.ne_nil_of_mem hmem)⟩⟩

/-- Where one app is asked for, no service is under any name but that of its app. -/
theorem app_of_mem_group_some {app : String} {s : Service}
    (h : (name, members) ∈ (group label (some app) services workloads).entries)
    (hs : s ∈ members.services) : appOf label s = some app ∧ name = app := by
  rw [NameMap.mem_entries_iff, find?_group_filtered, ofLists?_eq_some_iff] at h
  rw [h.1] at hs
  obtain ⟨hs, hname⟩ := List.mem_filter.1 hs
  have happ : appOf label s = some app := by simpa using (List.mem_filter.1 hs).2
  exact ⟨happ, Option.some.inj ((beq_iff_eq.1 hname).symm.trans happ)⟩

end AppMembers

namespace Resolver

variable {r : Resolver} {ns app : String} {only : Option String}

/-- The workloads told from what was fetched with the selector of an app, or of any app. -/
def selectedWorkloads (r : Resolver) (only : Option String) (resources : Resources) :
    List Workload :=
  resources.workloads r.config.sidecarKey (some (appSelector r.config.appLabel only))

/-- The members of apps are there once the services and the objects of the namespace are. -/
theorem gives_appMembers_iff {limit : Nat} {apps : NameMap AppMembers} :
    (r.appMembers ns only).Gives limit apps ↔ ∃ (services : List Service) (resources : Resources),
      (r.call (.services ns)).Gives limit services ∧
      (r.namespaceResources ns (some (appSelector r.config.appLabel only))).Gives limit resources ∧
      apps = AppMembers.group r.config.appLabel only services
        (r.selectedWorkloads only resources) := by
  constructor
  · intro h
    obtain ⟨⟨services, resources⟩, hboth, rfl⟩ := h.of_map
    obtain ⟨hservices, hresources⟩ := hboth.of_both
    exact ⟨services, resources, hservices, hresources, rfl⟩
  · rintro ⟨services, resources, hservices, hresources, rfl⟩
    exact (hservices.both hresources).map _

/-- The details of an app among the members of the apps that were found. -/
def appDetails (app : String) (info : NamespaceInfo) (apps : NameMap AppMembers) :
    Except Failure App :=
  match apps.find? app with
  | none => .error (.notFound "App" app)
  | some members => .ok (.ofMembers info app members)

theorem fst_getApp (r : Resolver) (ns app : String) (p : Progress) :
    (r.getApp ns app p).1 = (r.namespaceResult ns).bind fun info =>
      ((r.appMembers ns (some app)).within r.config.limit).bind (appDetails app info) := by
  rw [← fst_namespaceInfo_eq r ns p]
  refine Run.fst_bind (fun info q => ?_) p
  rw [← Run.fst_waitWithin _ q]
  refine Run.fst_bind (fun apps q => ?_) q
  unfold appDetails
  cases apps.find? app <;> rfl

theorem appDetails_eq_ok_iff {info : NamespaceInfo} {apps : NameMap AppMembers} {detail : App} :
    appDetails app info apps = .ok detail ↔
      ∃ members, apps.find? app = some members ∧ detail = .ofMembers info app members := by
  unfold appDetails
  cases apps.find? app with
  | none => simp
  | some members => simp [eq_comm]

theorem getApp_eq_ok_iff {p : Progress} {detail : App} : (r.getApp ns app p).1 = .ok detail ↔
    ∃ info apps members, r.namespaceResult ns = .ok info ∧
      (r.appMembers ns (some app)).Gives r.config.limit apps ∧
      apps.find? app = some members ∧ detail = .ofMembers info app members := by
  rw [fst_getApp]
  constructor
  · intro h
    cases hinfo : r.namespaceResult ns with
    | error e => simp [hinfo, Except.bind] at h
    | ok info =>
      cases happs : (r.appMembers ns (some app)).within r.config.limit with
      | error e => simp [hinfo, happs, Except.bind] at h
      | ok apps =>
        rw [hinfo, happs] at h
        obtain ⟨members, hmembers, rfl⟩ := appDetails_eq_ok_iff.1 h
        exact ⟨info, apps, members, rfl, Batch.gives_of_within happs, hmembers, rfl⟩
  · rintro ⟨info, apps, members, hinfo, happs, hmembers, rfl⟩
    rw [hinfo, happs.within]
    exact appDetails_eq_ok_iff.2 ⟨members, hmembers, rfl⟩

/-- The apps of a namespace are its services and workloads, parted by their values of the label.
Where one app is asked for, by whatever text, no service of another value is told of, nor any
workload of another value in its details. -/
theorem apps_part_namespace (r : Resolver) (ns : String) :
    (∀ services workloads, AppMembers.Parts r.config.appLabel services workloads
      (AppMembers.group r.config.appLabel none services workloads)) ∧
    (∀ only limit apps, (r.appMembers ns only).Gives limit apps ↔
      ∃ (services : List Service) (resources : Resources),
      (r.call (.services ns)).Gives limit services ∧
      (r.namespaceResources ns (some (appSelector r.config.appLabel only))).Gives limit resources ∧
      apps = AppMembers.group r.config.appLabel only services
        (r.selectedWorkloads only resources)) ∧
    (∀ app limit apps, (r.appMembers ns (some app)).Gives limit apps →
      ∀ e ∈ apps.entries, ∀ s ∈ e.2.services,
        AppMembers.appOf r.config.appLabel s = some app ∧ e.1 = app) ∧
    ∀ app p detail, (r.getApp ns app p).1 = .ok detail →
      ∃ (services : List Service) (resources : Resources),
      (r.call (.services ns)).Gives r.config.limit services ∧
      (r.namespaceResources ns (some (appSelector r.config.appLabel (some app)))).Gives
        r.config.limit resources ∧
      detail.name = app ∧
      detail.serviceNames = (services.filter fun s =>
        AppMembers.appOf r.config.appLabel s == some app).map Object.anyName ∧
      detail.workloads = ((r.selectedWorkloads (some app) resources).filter fun w =>
        w.labels.find? r.config.appLabel == some app).map fun w => (w.name, w.istioSidecar) := by
  refine ⟨AppMembers.parts_group r.config.appLabel, fun only limit apps => gives_appMembers_iff,
    fun app limit apps h e he s hs => ?_, fun app p detail h => ?_⟩
  · obtain ⟨services, resources, -, -, rfl⟩ := gives_appMembers_iff.1 h
    exact AppMembers.app_of_mem_group_some he hs
  · obtain ⟨info, apps, members, -, happs, hmembers, rfl⟩ := getApp_eq_ok_iff.1 h
    obtain ⟨services, resources, hservices, hresources, rfl⟩ := gives_appMembers_iff.1 happs
    rw [AppMembers.find?_group (by simp), AppMembers.ofLists?_eq_some_iff] at hmembers
    obtain ⟨rfl, -⟩ := hmembers
    exact ⟨services, resources, hservices, hresources, rfl, rfl, rfl⟩

/-- A shop with a service for an app whose name asks for the pods of another app. -/
def commaShop : Resolver where
  config := {}
  source := .live (some (shopServer.set [("services", .array [.record [
    ("metadata", .record [("name", .text "odd"), ("namespace", .text "shop")]),
    ("spec", .record [("selector", .record [("app", .text "web, ")])])]])])) {} false

/-- The pods of the app web were selected, and its workload was told from them. -/
theorem commaShop_selected :
    ∃ apps, (commaShop.appMembers "shop" (some "web, ")).Gives commaShop.config.limit apps ∧
      (apps.entries.map fun e => (e.1, e.2.services.map Object.anyName,
        e.2.workloads.map (·.name))) = [("web", [], ["web"]), ("web, ", ["odd"], [])] := by
  have htold : (commaShop.appMembers "shop" (some "web, ")).result.map (fun apps =>
      apps.entries.map fun e => (e.1, e.2.services.map Object.anyName,
        e.2.workloads.map (·.name))) = .ok [("web", [], ["web"]), ("web, ", ["odd"], [])] := by
    decide +kernel
  cases happs : (commaShop.appMembers "shop" (some "web, ")).result with
  | error e =>
    rw [happs] at htold
    cases htold
  | ok apps =>
    rw [happs] at htold
    exact ⟨apps, ⟨happs, by decide +kernel⟩, Except.ok.inj htold⟩

theorem commaShop_apps_part :
    ∃ apps detail, (commaShop.appMembers "shop" (some "web, ")).Gives commaShop.config.limit apps ∧
      (apps.entries.map fun e => (e.1, e.2.services.map Object.anyName,
        e.2.workloads.map (·.name))) = [("web", [], ["web"]), ("web, ", ["odd"], [])] ∧
      (commaShop.getApp "shop" "web, " {}).1 = .ok detail ∧
      (∀ e ∈ apps.entries, ∀ s ∈ e.2.services,
        AppMembers.appOf "app" s = some "web, " ∧ e.1 = "web, ") ∧
      ∃ (services : List Service) (resources : Resources),
        (commaShop.call (.services "shop")).Gives commaShop.config.limit services ∧
        (commaShop.namespaceResources "shop" (some "app=web, ")).Gives
          commaShop.config.limit resources ∧
        detail.name = "web, " ∧
        detail.serviceNames = (services.filter fun s =>
          AppMembers.appOf "app" s == some "web, ").map Object.anyName ∧
        detail.workloads = ((commaShop.selectedWorkloads (some "web, ") resources).filter fun w =>
          w.labels.find? "app" == some "web, ").map fun w => (w.name, w.istioSidecar) := by
  obtain ⟨apps, happs, hgrouped⟩ := commaShop_selected
  obtain ⟨detail, hdetail⟩ : ∃ detail, (commaShop.getApp "shop" "web, " {}).1 = .ok detail := by
    have htold : (commaShop.getApp "shop" "web, " {}).1.isOk = true := by decide +kernel
    cases h : (commaShop.getApp "shop" "web, " {}).1 with
    | error e =>
      rw [h] at htold
      cases htold
    | ok detail => exact ⟨detail, rfl⟩
  exact ⟨apps, detail, happs, hgrouped, hdetail,
    (apps_part_namespace commaShop "shop").2.2.1 "web, " _ apps happs,
    (apps_part_namespace commaShop "shop").2.2.2 "web, " {} detail hdetail⟩

end Resolver

end WorkloadMap
