import WorkloadMap.Proofs.App.Group
import WorkloadMap.Proofs.Resolver.Views
import WorkloadMap.Proofs.Workload.Labeled
import WorkloadMap.Resolver.Apps

/-!
Two views of the apps of one namespace: the list, from the pods that have the label, and the details
of one app, from those that have its value. Main statement: the details tell of what the list has
grouped under the app, and there are none of an app that is not listed.
-/
namespace WorkloadMap

namespace Resolver

/-- The source tells of a namespace what the cluster has in it, all in time, and selects the pods of
any app, and of one, as their selectors say. -/
structure SeesApp (r : Resolver) (ns app : String) (cluster : Resources)
    (services : List Service) : Prop where
  namespaceInfo : ∃ n : Namespace, (r.call (.namespaceInfo ns)).result = .ok (some n)
  pods : ∀ only ∈ [none, some app], ∀ s,
    Selector.parse (appSelector r.config.appLabel only) = .ok s →
      (r.call (.pods ns (some (appSelector r.config.appLabel only)))).Gives r.config.limit
        (cluster.selectedBy s).pods
  list : ∀ k, r.fetches k = true →
    (r.call (.controllers k ns)).Gives r.config.limit (cluster.controllers k)
  services : (r.call (.services ns)).Gives r.config.limit services

variable {r : Resolver} {ns app : String} {cluster : Resources} {services : List Service}
  {only : Option String} {s : Selector}

theorem SeesApp.appMembers (h : r.SeesApp ns app cluster services) (honly : only ∈ [none, some app])
    (hs : Selector.parse (appSelector r.config.appLabel only) = .ok s) :
    (r.appMembers ns only).Gives r.config.limit
      (AppMembers.group r.config.appLabel only services
        (((cluster.only r.fetches).selectedBy s).workloads r.config.sidecarKey
          (some (appSelector r.config.appLabel only)))) := by
  have hresources : (r.namespaceResources ns (some (appSelector r.config.appLabel only))).Gives
      r.config.limit ((cluster.only r.fetches).selectedBy s) :=
    gives_resources (h.pods only honly s hs) fun k => gives_listIf (h.list k)
  exact (h.services.both hresources).map _

theorem exists_parse_appSelector {label : String} (hlabel : Selector.IsKey label)
    (happ : Selector.IsValue app) (honly : only ∈ [none, some app]) :
    ∃ s, Selector.parse (appSelector label only) = .ok s ∧ s.SelectsValue label app := by
  simp only [List.mem_cons, List.not_mem_nil, or_false] at honly
  rcases honly with rfl | rfl
  · exact ⟨_, Selector.parse_label hlabel, Selector.selectsValue_present label app⟩
  · exact ⟨_, Selector.parse_label_value hlabel happ, Selector.selectsValue_oneOf label app⟩

/-- Whichever of the two selectors is asked with, one finds the same members under the app. -/
theorem SeesApp.members_eq (h : r.SeesApp ns app cluster services)
    (hwell : (cluster.only r.fetches).WellLabeled) (hlabel : Selector.IsKey r.config.appLabel)
    (happ : Selector.IsValue app) (honly : only ∈ [none, some app]) :
    ∃ apps, (r.appMembers ns only).Gives r.config.limit apps ∧ apps.find? app =
      AppMembers.ofLists?
        (services.filter fun s => AppMembers.appOf r.config.appLabel s == some app)
        (((cluster.only r.fetches).workloads r.config.sidecarKey none).filter fun w =>
          w.labels.find? r.config.appLabel == some app) := by
  obtain ⟨s, hs, hvalue⟩ := exists_parse_appSelector hlabel happ honly
  refine ⟨_, h.appMembers honly hs, ?_⟩
  have hname : only.all (· == app) = true := by
    simp only [List.mem_cons, List.not_mem_nil, or_false] at honly
    rcases honly with rfl | rfl <;> simp
  rw [AppMembers.find?_group hname, hwell.workloads_selectedBy hvalue hs]

theorem listApps_apply {n : Namespace} {apps : NameMap AppMembers}
    (haccessible : r.config.isAccessible ns = true)
    (hn : (r.call (.namespaceInfo ns)).result = .ok (some n))
    (happs : (r.appMembers ns none).Gives r.config.limit apps) (p : Progress) :
    ∃ q, r.listApps ns false p = (.ok ⟨n.info, apps.entries.map fun (name, members) =>
      .ofMembers [] [] name members⟩, q) := by
  obtain ⟨p₁, hinfo⟩ := namespaceInfo_apply_of_found haccessible hn p
  have hlinked := (gives_linked_false r ns IstioKind.routing).both
    (gives_linked_false r ns IstioKind.selecting)
  obtain ⟨p₂, hfetch⟩ := Run.waitWithin_of_gives (happs.both hlinked) p₁
  refine ⟨p₂, ?_⟩
  unfold listApps Resolver.fetch
  rw [Run.bind_apply_of_ok hinfo, Run.bind_apply_of_ok hfetch]
  rfl

theorem getApp_apply {n : Namespace} {apps : NameMap AppMembers}
    (haccessible : r.config.isAccessible ns = true)
    (hn : (r.call (.namespaceInfo ns)).result = .ok (some n))
    (happs : (r.appMembers ns (some app)).Gives r.config.limit apps) (p : Progress) :
    (r.getApp ns app p).1 = match apps.find? app with
      | none => .error (.notFound "App" app)
      | some members => .ok (.ofMembers n.info app members) := by
  obtain ⟨p₁, hinfo⟩ := namespaceInfo_apply_of_found haccessible hn p
  obtain ⟨p₂, hfetch⟩ := Run.waitWithin_of_gives happs p₁
  unfold getApp Resolver.fetch
  rw [Run.bind_apply_of_ok hinfo, Run.bind_apply_of_ok hfetch]
  cases apps.find? app <;> rfl

theorem exists_item_iff {apps : NameMap AppMembers} :
    (∃ item ∈ apps.entries.map fun (name, members) => AppItem.ofMembers [] [] name members,
      item.name = app) ↔ ∃ members, apps.find? app = some members := by
  simp only [List.mem_map, Prod.exists, NameMap.mem_entries_iff]
  constructor
  · rintro ⟨_, ⟨name, members, hfound, rfl⟩, rfl⟩
    exact ⟨members, hfound⟩
  · rintro ⟨members, hfound⟩
    exact ⟨_, ⟨app, members, hfound, rfl⟩, rfl⟩

theorem forall_item_iff {apps : NameMap AppMembers} :
    (∀ item ∈ apps.entries.map fun (name, members) => AppItem.ofMembers [] [] name members,
      item.name ≠ app) ↔ apps.find? app = none := by
  rw [Option.eq_none_iff_forall_ne_some, ← not_exists, ← exists_item_iff]
  simp only [not_exists, not_and, ne_eq]

/-- An app has details exactly if it is listed, and they tell of the members that the list has
grouped under it. -/
theorem SeesApp.apps_agree (h : r.SeesApp ns app cluster services) (hnamed : cluster.WellNamed)
    (hknown : cluster.KnownManagers) (hstamped : (cluster.only r.fetches).Stamped)
    (haccessible : r.config.isAccessible ns = true) (hlabel : Selector.IsKey r.config.appLabel)
    (happ : Selector.IsValue app) (p p' : Progress) :
    ∃ list apps, (r.listApps ns false p).1 = .ok list ∧
      (r.appMembers ns none).Gives r.config.limit apps ∧
      list.apps = (apps.entries.map fun (name, members) => .ofMembers [] [] name members) ∧
      ((∃ item ∈ list.apps, item.name = app) ↔ ∃ detail, (r.getApp ns app p').1 = .ok detail) ∧
      ((∀ item ∈ list.apps, item.name ≠ app) ↔
        (r.getApp ns app p').1 = .error (.notFound "App" app)) ∧
      ∀ detail, (r.getApp ns app p').1 = .ok detail →
        ∃ members, apps.find? app = some members ∧ detail = .ofMembers list.ns app members := by
  have hwell : (cluster.only r.fetches).WellLabeled :=
    { toWellNamed := hnamed.only, toStamped := hstamped
      known := fun o ho => hknown o (Resources.managers_only_subset ho) }
  obtain ⟨n, hn⟩ := h.namespaceInfo
  obtain ⟨apps, happs, hfound⟩ := h.members_eq hwell hlabel happ List.mem_cons_self
  obtain ⟨asked, hasked, hfound'⟩ :=
    h.members_eq hwell hlabel happ (List.mem_cons_of_mem _ (List.mem_singleton_self (some app)))
  obtain ⟨q, hlist⟩ := listApps_apply haccessible hn happs p
  have hdetail := getApp_apply haccessible hn hasked p'
  rw [hfound'.trans hfound.symm] at hdetail
  refine ⟨_, apps, congrArg Prod.fst hlist, happs, rfl, ?_, ?_, fun detail htold => ?_⟩
  · rw [exists_item_iff, hdetail]
    cases apps.find? app <;> simp
  · rw [forall_item_iff, hdetail]
    cases apps.find? app <;> simp
  · rw [hdetail] at htold
    cases hmembers : apps.find? app with
    | none =>
      rw [hmembers] at htold
      cases htold
    | some members =>
      rw [hmembers] at htold
      exact ⟨members, rfl, (Except.ok.inj htold).symm⟩

theorem shopResolver_seesApp : shopResolver.SeesApp "shop" "web" Resources.shop [] where
  namespaceInfo := shopResolver_sees.namespaceInfo
  pods := by
    intro only honly s hs
    simp only [List.mem_cons, List.not_mem_nil, or_false] at honly
    rcases honly with rfl | rfl
    · cases hs
      exact ⟨rfl, rfl⟩
    · cases hs
      exact ⟨rfl, rfl⟩
  list := shopResolver_sees.list
  services := ⟨rfl, rfl⟩

theorem shop_apps_agree :
    shopResolver.SeesApp "shop" "web" Resources.shop [] ∧
      Resources.shop.WellNamed ∧ Resources.shop.KnownManagers ∧
      (Resources.shop.only shopResolver.fetches).Stamped ∧
      Selector.IsKey "app" ∧ Selector.IsValue "web" ∧
      ∃ list apps, (shopResolver.listApps "shop" false {}).1 = .ok list ∧
        (shopResolver.appMembers "shop" none).Gives shopResolver.config.limit apps ∧
        list.apps = (apps.entries.map fun (name, members) => .ofMembers [] [] name members) ∧
        ((∃ item ∈ list.apps, item.name = "web") ↔
          ∃ detail, (shopResolver.getApp "shop" "web" {}).1 = .ok detail) ∧
        ((∀ item ∈ list.apps, item.name ≠ "web") ↔
          (shopResolver.getApp "shop" "web" {}).1 = .error (.notFound "App" "web")) ∧
        ∀ detail, (shopResolver.getApp "shop" "web" {}).1 = .ok detail →
          ∃ members, apps.find? "web" = some members ∧
            detail = .ofMembers list.ns "web" members := by
  have hnamed : Resources.shop.WellNamed := by decide +kernel
  have hknown : Resources.shop.KnownManagers := by decide +kernel
  have hstamped : (Resources.shop.only shopResolver.fetches).Stamped := by decide +kernel
  have hlabel : Selector.IsKey "app" := by decide +kernel
  have happ : Selector.IsValue "web" := by decide +kernel
  exact ⟨shopResolver_seesApp, hnamed, hknown, hstamped, hlabel, happ,
    shopResolver_seesApp.apps_agree hnamed hknown hstamped rfl hlabel happ {} {}⟩

end Resolver

end WorkloadMap
