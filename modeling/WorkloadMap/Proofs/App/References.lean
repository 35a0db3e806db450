import Mathlib.Data.List.Nodup
import WorkloadMap.Proofs.App.Group
import WorkloadMap.Proofs.Cluster.Listed
import WorkloadMap.Proofs.Resolver.Linked

/-!
The references of an app. What selects its workloads is referred to once, but a route is referred to
for each service it leads to. Main statement: an app refers to each object once exactly if none of
the objects routes to two of its services.
-/
namespace WorkloadMap

namespace IstioKind

theorem routing_disjoint_selecting : List.Disjoint routing selecting := by
  intro k
  cases k <;> decide

end IstioKind

namespace IstioObject

/-- Whether an object routes to a service, by its name and namespace. -/
def routesTo (o : IstioObject) (s : Service) : Bool :=
  o.refersToService (Object.anyName s) (s.metadata.ns.getD "")

theorem reference_inj {o o' : IstioObject} (h : o.reference = o'.reference) :
    o.kind = o'.kind ∧ (o.ns, o.name) = (o'.ns, o'.name) := by
  obtain ⟨hkind, hname, hns⟩ := IstioReference.mk.inj h
  exact ⟨IstioKind.name_injective hkind, Prod.ext hns hname⟩

/-- Objects that are told apart within each kind are told apart by their references. -/
theorem nodup_references {kinds : List IstioKind} (hkinds : kinds.Nodup)
    {fetched : IstioKind → List IstioObject} (hkind : ∀ k ∈ kinds, ∀ o ∈ fetched k, o.kind = k)
    (hdistinct : ∀ k ∈ kinds, ((fetched k).map fun o => (o.ns, o.name)).Nodup) :
    ((kinds.flatMap fetched).map (·.reference)).Nodup := by
  rw [List.map_flatMap, List.nodup_flatMap]
  constructor
  · intro k hk
    refine List.Nodup.of_map (fun reference => (reference.ns, reference.name)) ?_
    rw [List.map_map]
    exact hdistinct k hk
  · refine hkinds.imp_of_mem fun {k k'} hk hk' hne => ?_
    rintro _ hleft hright
    obtain ⟨o, ho, rfl⟩ := List.mem_map.1 hleft
    obtain ⟨o', ho', heq⟩ := List.mem_map.1 hright
    have hsame : o'.kind = o.kind := (reference_inj heq).1
    exact hne ((hkind k hk o ho).symm.trans (hsame.symm.trans (hkind k' hk' o' ho')))

end IstioObject

namespace AppMembers

variable {members : AppMembers} {routing selecting : List IstioObject}

theorem nodup_foldl_once {α : Type} [DecidableEq α] (as seen : List α) (h : seen.Nodup) :
    (as.foldl (fun seen a => if a ∈ seen then seen else seen ++ [a]) seen).Nodup := by
  induction as generalizing seen with
  | nil => exact h
  | cons a as ih =>
    rw [List.foldl_cons]
    refine ih _ ?_
    by_cases ha : a ∈ seen
    · rwa [if_pos ha]
    · rw [if_neg ha]
      exact List.nodup_append'.2 ⟨h, List.nodup_singleton a, List.disjoint_singleton.2 ha⟩

theorem mem_foldl_once {α : Type} [DecidableEq α] {a : α} (as seen : List α) :
    a ∈ as.foldl (fun seen a => if a ∈ seen then seen else seen ++ [a]) seen ↔
      a ∈ seen ∨ a ∈ as := by
  induction as generalizing seen with
  | nil => simp
  | cons b as ih =>
    rw [List.foldl_cons, ih]
    by_cases hb : b ∈ seen
    · rw [if_pos hb, List.mem_cons]
      grind
    · rw [if_neg hb, List.mem_append, List.mem_singleton, List.mem_cons, or_assoc]

/-- The references to the routes of each service in turn. -/
def routes (members : AppMembers) (routing : List IstioObject) : List IstioReference :=
  members.services.flatMap fun s => (routing.filter (·.routesTo s)).map (·.reference)

theorem nodup_routes_iff (hrouting : (routing.map (·.reference)).Nodup) :
    (members.routes routing).Nodup ↔
      members.services.Pairwise fun a b => ∀ o ∈ routing, ¬(o.routesTo a ∧ o.routesTo b) := by
  unfold routes
  rw [List.nodup_flatMap]
  constructor
  · rintro ⟨-, hapart⟩
    refine hapart.imp fun {a b} hab o ho hroutes => ?_
    exact hab (List.mem_map_of_mem (List.mem_filter.2 ⟨ho, hroutes.1⟩))
      (List.mem_map_of_mem (List.mem_filter.2 ⟨ho, hroutes.2⟩))
  · intro hapart
    refine ⟨fun s _ => hrouting.sublist (List.filter_sublist.map _), ?_⟩
    refine hapart.imp fun {a b} hab reference ha hb => ?_
    obtain ⟨o, ho, rfl⟩ := List.mem_map.1 ha
    obtain ⟨o', ho', heq⟩ := List.mem_map.1 hb
    obtain ⟨hmem, hroutes⟩ := List.mem_filter.1 ho
    obtain ⟨hmem', hroutes'⟩ := List.mem_filter.1 ho'
    -- Two objects of one reference are one object.
    obtain rfl : o' = o := List.inj_on_of_nodup_map hrouting hmem' hmem heq
    exact hab o' hmem ⟨hroutes, hroutes'⟩

/-- Routes and what selects workloads are told apart by their kinds. -/
theorem nodup_references_iff (members : AppMembers)
    (hrouting : (routing.map (·.reference)).Nodup)
    (hroutes : ∀ o ∈ routing, o.kind ∈ IstioKind.routing)
    (hselects : ∀ o ∈ selecting, o.kind ∈ IstioKind.selecting) :
    (members.references routing selecting).Nodup ↔
      members.services.Pairwise fun a b => ∀ o ∈ routing, ¬(o.routesTo a ∧ o.routesTo b) := by
  have hreferences : members.references routing selecting = members.routes routing ++
      (members.workloads.flatMap fun w => (selecting.filter (·.selectsWorkload w.labels)).map
        (·.reference)).foldl (fun seen o => if o ∈ seen then seen else seen ++ [o]) [] :=
    rfl
  rw [hreferences, List.nodup_append', nodup_routes_iff hrouting, and_iff_left]
  refine ⟨nodup_foldl_once _ [] List.nodup_nil, fun reference hroute hselection => ?_⟩
  rw [mem_foldl_once] at hselection
  obtain ⟨s, -, hroute⟩ := List.mem_flatMap.1 hroute
  obtain ⟨w, -, hselection⟩ := List.mem_flatMap.1 (hselection.resolve_left List.not_mem_nil)
  obtain ⟨o, ho, rfl⟩ := List.mem_map.1 hroute
  obtain ⟨o', ho', heq⟩ := List.mem_map.1 hselection
  have hkind : o.kind = o'.kind := (IstioObject.reference_inj heq).1.symm
  exact IstioKind.routing_disjoint_selecting (hroutes o (List.mem_filter.1 ho).1)
    (hkind ▸ hselects o' (List.mem_filter.1 ho').1)

theorem services_of_find?_group {label name : String} {services : List Service}
    {workloads : List Workload}
    (h : (group label none services workloads).find? name = some members) :
    members.services = services.filter fun s => appOf label s == some name := by
  rw [find?_group rfl, ofLists?_eq_some_iff] at h
  exact congrArg AppMembers.services h.1

end AppMembers

namespace Session

variable {s : Session} {ns : String}

/-- Where routing objects of one kind are told apart by namespace and name, an app refers to each
object once exactly if none of them routes to two of its services. -/
theorem appListing_references_nodup_iff {list : AppList} (h : s.appListing ns true = .ok list)
    (hdistinct : ∀ k ∈ IstioKind.routing, ∀ objects,
      (Client.istioObjects s.link k ns).result = .ok objects →
        (objects.map fun o => (o.ns, o.name)).Nodup) :
    ∃ (services : List Service) (fetched : IstioKind → List IstioObject),
      (s.source.outcome (.services ns)).result = .ok services ∧
      (∀ k ∈ IstioKind.routing, (Client.istioObjects s.link k ns).result = .ok (fetched k)) ∧
      ∀ item ∈ list.apps, item.istioReferences.Nodup ↔
        (services.filter fun service =>
          AppMembers.appOf s.config.appLabel service == some item.name).Pairwise fun a b =>
            ∀ o ∈ IstioKind.routing.flatMap fetched, ¬(o.routesTo a ∧ o.routesTo b) := by
  rw [appListing_eq] at h
  obtain ⟨info, apps, ⟨routing, selecting⟩, -, happs, hlinks, rfl⟩ :=
    Resolver.listing_eq_ok_iff.1 h
  obtain ⟨⟨services, resources⟩, hboth, rfl⟩ := happs.of_map
  obtain ⟨hservices, -⟩ := hboth.of_both
  obtain ⟨hrouting, hselecting⟩ := hlinks.of_both
  obtain ⟨routed, hrouted, rfl⟩ := Resolver.exists_fetched hrouting
  obtain ⟨selected, hselected, rfl⟩ := Resolver.exists_fetched hselecting
  have hroutes : ∀ k ∈ IstioKind.routing,
      (Client.istioObjects s.link k ns).result = .ok (routed k) :=
    fun k hk => (s.call_istioObjects k ns).1.symm.trans (hrouted k hk).result
  have hselects : ∀ k ∈ IstioKind.selecting,
      (Client.istioObjects s.link k ns).result = .ok (selected k) :=
    fun k hk => (s.call_istioObjects k ns).1.symm.trans (hselected k hk).result
  refine ⟨services, routed, hservices.result, hroutes, fun item hitem => ?_⟩
  obtain ⟨⟨name, members⟩, hmembers, rfl⟩ := List.mem_map.1 hitem
  have hfound := AppMembers.services_of_find?_group (NameMap.mem_entries_iff.1 hmembers)
  have hapart := IstioObject.nodup_references (by decide)
    (fun k hk o ho => Client.kind_of_mem_istioObjects (hroutes k hk) ho)
    fun k hk => hdistinct k hk _ (hroutes k hk)
  have hnodup := AppMembers.nodup_references_iff members hapart
    (Client.kind_of_mem_flatMap hroutes) (Client.kind_of_mem_flatMap hselects)
  rw [hfound] at hnodup
  exact hnodup

/-- A shop with a service for a trial version, and a route that leads to either. -/
def canaryShop : Session where
  config := {}
  link := some (Resolver.shopServer.set [
    ("services", .array (["web", "web-canary"].map fun name => .record [
      ("metadata", .record [("name", .text name), ("namespace", .text "shop")]),
      ("spec", .record [("selector", .record [("app", .text "web")])])])),
    ("virtualservices", .array [.record [
      ("metadata", .record [("name", .text "web-route"), ("namespace", .text "shop")]),
      ("spec", .record [("hosts", .array [.text "web", .text "web-canary"])])]])])
  openshift := false
  cache := { patterns := [] }
  usesCache := false

theorem canaryShop_distinct (k : IstioKind) (objects : List IstioObject)
    (h : (Client.istioObjects canaryShop.link k "shop").result = .ok objects) :
    (objects.map fun o => (o.ns, o.name)).Nodup := by
  cases k
  case virtualService =>
    cases h
    exact List.nodup_singleton _
  all_goals
    cases h
    exact List.nodup_nil

/-- The route is referred to for each of the services. -/
theorem canaryShop_listed : ∃ list, canaryShop.appListing "shop" true = .ok list ∧
    list.apps.map (·.istioReferences) =
      [[], List.replicate 2 ⟨"VirtualService", "web-route", "shop"⟩] := by
  have hlisted : (canaryShop.appListing "shop" true).map
      (fun list => list.apps.map (·.istioReferences)) =
        .ok [[], List.replicate 2 ⟨"VirtualService", "web-route", "shop"⟩] := by
    decide +kernel
  cases hlist : canaryShop.appListing "shop" true with
  | error e =>
    rw [hlist] at hlisted
    cases hlisted
  | ok list =>
    rw [hlist] at hlisted
    exact ⟨list, rfl, Except.ok.inj hlisted⟩

theorem canaryShop_references : ∃ list, canaryShop.appListing "shop" true = .ok list ∧
    (∀ k ∈ IstioKind.routing, ∀ objects,
      (Client.istioObjects canaryShop.link k "shop").result = .ok objects →
        (objects.map fun o => (o.ns, o.name)).Nodup) ∧
    ∃ (services : List Service) (fetched : IstioKind → List IstioObject),
      (canaryShop.source.outcome (.services "shop")).result = .ok services ∧
      (∀ k ∈ IstioKind.routing,
        (Client.istioObjects canaryShop.link k "shop").result = .ok (fetched k)) ∧
      ∀ item ∈ list.apps, item.istioReferences.Nodup ↔
        (services.filter fun service =>
          AppMembers.appOf "app" service == some item.name).Pairwise fun a b =>
            ∀ o ∈ IstioKind.routing.flatMap fetched, ¬(o.routesTo a ∧ o.routesTo b) := by
  obtain ⟨list, hlist, -⟩ := canaryShop_listed
  have hdistinct : ∀ k ∈ IstioKind.routing, ∀ objects,
      (Client.istioObjects canaryShop.link k "shop").result = .ok objects →
        (objects.map fun o => (o.ns, o.name)).Nodup := fun k _ => canaryShop_distinct k
  exact ⟨list, hlist, hdistinct, appListing_references_nodup_iff hlist hdistinct⟩

theorem canaryShop_repeats :
    (∀ k objects, (Client.istioObjects canaryShop.link k "shop").result = .ok objects →
      (objects.map fun o => (o.ns, o.name)).Nodup) ∧
    ∃ list, canaryShop.appListing "shop" true = .ok list ∧
      ∃ item ∈ list.apps, ¬item.istioReferences.Nodup := by
  obtain ⟨list, hlist, hreferences⟩ := canaryShop_listed
  obtain ⟨item, hitem, htwice⟩ : ∃ item ∈ list.apps,
      item.istioReferences = List.replicate 2 ⟨"VirtualService", "web-route", "shop"⟩ := by
    rw [← List.mem_map, hreferences]
    exact List.mem_cons_of_mem _ (List.mem_singleton_self _)
  refine ⟨canaryShop_distinct, list, hlist, item, hitem, ?_⟩
  rw [htwice]
  decide

end Session

end WorkloadMap
