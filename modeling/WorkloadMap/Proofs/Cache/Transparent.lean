import Mathlib.Data.List.Find
import WorkloadMap.Cache.Decode
import WorkloadMap.Cache.Source
import WorkloadMap.Proofs.Cache.Replay
import WorkloadMap.Proofs.Cluster.Address
import WorkloadMap.Proofs.NameMap
import WorkloadMap.Proofs.Resolver.Carried
import WorkloadMap.Proofs.Resolver.Views

/-!
Reads through a cache. A cache that holds the objects of a namespace lists them as the server does,
in the order of their names, finds the same object under a name and reads the same selectors. Main
statement: an operation on a namespace that is served from such a cache comes to what it comes to
with the server alone.
-/
namespace WorkloadMap

/-- The objects of one namespace, of each kind that a cache holds. -/
abbrev Store := (k : CachedKind) → List k.Item

namespace Store

variable {store : Store}

def controllers? (store : Store) : ControllerKind → Option (List Controller)
  | .deployment => some (store .deployment)
  | .replicaSet => some (store .replicaSet)
  | .statefulSet => some (store .statefulSet)
  | .daemonSet => some (store .daemonSet)
  | .deploymentConfig | .replicationController | .job | .cronJob => none

/-- The answer to a call for these objects, as a server would give it. -/
def answer? (store : Store) : (call : Call) → Option call.Answer
  | .pods _ selector =>
    match Selector.parse (selector.getD "") with
    | .ok s => some (List.filter (fun pod : Pod => s.selects pod.metadata.labels) (store .pod))
    | .error _ => none
  | .controllers k _ => store.controllers? k
  | .controller k _ name => (store.controllers? k).map fun held => Object.find? held name
  | .services _ => some (store .service)
  | .namespaceInfo _ | .pod .. | .istioObjects .. | .patch .. | .syncText => none

/-- Each object has a name of its own among those of its kind, and stands in the order of names. -/
structure Orderly (store : Store) : Prop where
  named : ∀ k, Object.Named (store k)
  ascending : ∀ k, (store k).Pairwise fun a b => Object.anyName a ≤ Object.anyName b

theorem Orderly.strictlyAscending (h : store.Orderly) (k : CachedKind) :
    (store k).Pairwise fun a b => Object.anyName a < Object.anyName b := by
  have hdistinct : (store k).Nodup := (h.named k).nodup.of_map
  refine (hdistinct.and (h.ascending k)).imp_of_mem ?_
  rintro a b ha hb ⟨hne, hle⟩
  refine lt_of_le_of_ne hle fun hname => hne ?_
  exact (h.named k).eq_of_anyName_eq ha hb hname

theorem Orderly.named_of_controllers? (h : store.Orderly) {k : ControllerKind}
    {held : List Controller} (hheld : store.controllers? k = some held) : Object.Named held := by
  cases k with
  | deployment => cases hheld; exact h.named .deployment
  | replicaSet => cases hheld; exact h.named .replicaSet
  | statefulSet => cases hheld; exact h.named .statefulSet
  | daemonSet => cases hheld; exact h.named .daemonSet
  | deploymentConfig | replicationController | job | cronJob => cases hheld

end Store

theorem Object.Named.find?_anyName {α : Type} [Object α] {objects : List α}
    (h : Object.Named objects) (name : String) :
    (objects.find? fun o => Object.anyName o == name) = Object.find? objects name := by
  refine List.find?_congr fun o ho => ?_
  rw [h.name_eq ho]
  rfl

namespace Cache

variable {c : Cache} {ns : String} {store : Store}

/-- A cache holds the objects of a namespace: all of them, under their names, and nothing else. -/
def Holds (c : Cache) (ns : String) (store : Store) : Prop :=
  ∀ k name item, (c.held k ns).find? name = some item ↔ item ∈ store k ∧ Object.anyName item = name

theorem holds_of_entries
    (h : ∀ k, (c.held k ns).entries = (store k).map fun item => (Object.anyName item, item)) :
    c.Holds ns store := by
  intro k name item
  rw [← NameMap.mem_entries_iff, h k]
  simp

theorem Holds.listing_eq (h : c.Holds ns store) (horderly : store.Orderly) (k : CachedKind) :
    c.listing k ns = store k := by
  have hnames : ∀ name item, (c.held k ns).find? name = some item → Object.anyName item = name :=
    fun name item hfound => ((h k name item).1 hfound).2
  refine eq_of_ascending_of_mem_iff (ascending_listing hnames) (horderly.strictlyAscending k) ?_
  intro item
  rw [mem_listing hnames, h]
  exact and_iff_left rfl

theorem Holds.controllers?_eq (h : c.Holds ns store) (horderly : store.Orderly)
    (k : ControllerKind) : c.controllers? ns k = store.controllers? k := by
  cases k <;> simp only [controllers?, Store.controllers?, h.listing_eq horderly]

theorem Holds.answer?_eq (h : c.Holds ns store) (horderly : store.Orderly) {call : Call}
    (hns : call.ns? = some ns)
    (hselector : ∀ text, call = .pods ns text → ∃ s, Selector.parse (text.getD "") = .ok s) :
    c.answer? call = (store.answer? call).map .ok := by
  cases call with
  | pods ns' text =>
    obtain rfl := Option.some.inj hns
    obtain ⟨s, hs⟩ := hselector text rfl
    simp only [answer?, Store.answer?, hs, pods, h.listing_eq horderly]
    rfl
  | controllers k ns' =>
    obtain rfl := Option.some.inj hns
    simp only [answer?, Store.answer?, h.controllers?_eq horderly]
  | controller k ns' name =>
    obtain rfl := Option.some.inj hns
    simp only [answer?, Store.answer?, h.controllers?_eq horderly]
    cases hheld : store.controllers? k with
    | none => rfl
    | some held =>
      have hnamed : Object.Named held := horderly.named_of_controllers? hheld
      simp only [Option.map_some, hnamed.find?_anyName]
      rfl
  | services ns' =>
    obtain rfl := Option.some.inj hns
    simp only [answer?, Store.answer?, h.listing_eq horderly]
    rfl
  | namespaceInfo | pod | istioObjects | patch | syncText => rfl

theorem answer?_of_isPlain (c : Cache) {call : Call} (h : call.IsPlain) : c.answer? call = none := by
  cases call with
  | namespaceInfo | pod | istioObjects | patch | syncText => rfl
  | pods | controllers | controller | services => exact h.elim

end Cache

namespace Resolver

def throughCache (r : Resolver) (c : Cache) : Resolver :=
  { r with source := r.source.throughCache c }

end Resolver

namespace Operation

open Resolver (shopObject shopOwner)

variable {o : Operation} {r : Resolver} {c : Cache} {store : Store} {call : Call}

theorem ns?_of_mem_reads (h : call ∈ o.reads r) : call.ns? = some o.ns := by
  rcases List.mem_cons.1 h with rfl | h
  · rfl
  · exact ns?_of_mem_objectCalls h

/-- A cache serves the namespace of an operation and holds its objects. The operation asks with
selectors that can be read. The server's answers, where it gives any, are told from the same
objects, which it lists in the order of their names. -/
structure Mirrored (o : Operation) (r : Resolver) (c : Cache) (store : Store) : Prop where
  serves : c.serves o.ns = true
  holds : c.Holds o.ns store
  orderly : store.Orderly
  readable : ∀ text, .pods o.ns text ∈ o.reads r → ∃ s, Selector.parse (text.getD "") = .ok s
  truthful : ∀ call ∈ o.reads r, ∀ answer, store.answer? call = some answer →
    ∀ found, (r.source.outcome call).result = .ok found → found = answer

theorem Mirrored.answer?_eq (h : o.Mirrored r c store) (hcall : call ∈ o.reads r) :
    c.answer? call = (store.answer? call).map .ok :=
  h.holds.answer?_eq h.orderly (ns?_of_mem_reads hcall) fun text heq => h.readable text (heq ▸ hcall)

theorem Mirrored.gives_iff (h : o.Mirrored r c store) (hcall : call ∈ o.reads r)
    {answer : call.Answer} (hanswer : store.answer? call = some answer) {limit : Nat}
    {found : call.Answer} :
    ((r.throughCache c).call call).Gives limit found ↔ found = answer := by
  have hsays : c.answer? call = some (.ok answer) := by
    rw [h.answer?_eq hcall, hanswer]
    rfl
  have houtcome : (r.throughCache c).source.outcome call = { result := .ok answer } :=
    Source.outcome_throughCache_of_some h.serves (ns?_of_mem_reads hcall) hsays
  unfold Resolver.call Batch.ofCall
  rw [houtcome]
  constructor
  · intro hgives
    exact (Except.ok.inj hgives.result).symm
  · rintro rfl
    exact ⟨rfl, rfl⟩

theorem Mirrored.call_throughCache (h : o.Mirrored r c store) (hcall : call ∈ o.reads r)
    (hnone : store.answer? call = none) : (r.throughCache c).call call = r.call call := by
  have hsays : c.answer? call = none := by
    rw [h.answer?_eq hcall, hnone]
    rfl
  unfold Resolver.call Batch.ofCall
  rw [show (r.throughCache c).source.outcome call = r.source.outcome call from
    Source.outcome_throughCache_of_none hsays]

theorem Mirrored.replaces (h : o.Mirrored r c store) :
    r.Replaces (o.reads r) r.source.outcome (r.source.throughCache c).outcome where
  plain call hplain := Source.outcome_throughCache_of_none (c.answer?_of_isPlain hplain)
  asked call hcall := by
    cases hanswer : store.answer? call with
    | none => exact h.call_throughCache hcall hanswer ▸ .refl _
    | some answer =>
      intro a ha
      have htrue : a = answer := h.truthful call hcall answer hanswer a ha.result
      exact (h.gives_iff hcall hanswer).2 htrue

theorem Mirrored.replaces_back (h : o.Mirrored r c store)
    (hinTime : ∀ call ∈ o.reads r, (store.answer? call).isSome →
      ∃ found, (r.call call).Gives r.config.limit found) :
    r.Replaces (o.reads r) (r.source.throughCache c).outcome r.source.outcome where
  plain call hplain := (Source.outcome_throughCache_of_none (c.answer?_of_isPlain hplain)).symm
  asked call hcall := by
    cases hanswer : store.answer? call with
    | none => exact h.call_throughCache hcall hanswer ▸ .refl _
    | some answer =>
      intro a ha
      obtain ⟨found, hfound⟩ := hinTime call hcall (by simp [hanswer])
      have htrue : found = answer := h.truthful call hcall answer hanswer found hfound.result
      have hsaid : a = answer := (h.gives_iff hcall hanswer).1 ha
      exact (hsaid.trans htrue.symm) ▸ hfound

/-- What an operation comes to with the server alone it comes to through a cache of the same
objects, and the other way round where the server answers in time what the cache answers. -/
theorem Mirrored.transparent (h : o.Mirrored r c store) :
    o.CarriedOver r (r.throughCache c) ∧
      ((∀ call ∈ o.reads r, (store.answer? call).isSome →
          ∃ found, (r.call call).Gives r.config.limit found) →
        o.CarriedOver (r.throughCache c) r) :=
  ⟨carriedOver_of_replaces o h.replaces,
    fun hinTime => carriedOver_of_replaces o (h.replaces_back hinTime)⟩

def shopfrontObjects : CachedKind → List Json
  | .pod => [
      shopObject "toolbox" [] [],
      shopObject "web-1-a" [("labels", .record [("app", .text "web")]),
        shopOwner "ReplicaSet" "web-1"] []]
  | .deployment => [shopObject "web" [] [("app", .text "web")]]
  | .replicaSet => [shopObject "web-1" [shopOwner "Deployment" "web"] [("app", .text "web")]]
  | .service => [.record [
      ("metadata", .record [("name", .text "web"), ("namespace", .text "shop")]),
      ("spec", .record [("selector", .record [("app", .text "web")])])]]
  | .statefulSet | .daemonSet => []

def shopfrontServer : Server :=
  .ofMembers [
    ("namespaces", .array [.record [("metadata", .record [("name", .text "shop")])]]),
    ("pods", .array (shopfrontObjects .pod)),
    ("deployments", .array (shopfrontObjects .deployment)),
    ("replicasets", .array (shopfrontObjects .replicaSet)),
    ("services", .array (shopfrontObjects .service))]

def shopfrontResolver : Resolver where
  config := {}
  source := .live (some shopfrontServer) {} false

def shopfront : Store := fun k => (shopfrontObjects k).filterMap k.decode?

/-- Every kind was listed in full once. -/
def shopfrontCache : Cache :=
  .fed (Pattern.ofNamespaces? "**").toList
    (CachedKind.all.map fun k => .reset k (shopfront k) ∅)

theorem mem_reads_shopfront {call : Call}
    (h : call ∈ (Operation.app "shop" "web").reads shopfrontResolver) :
    call = .services "shop" ∨ call = .pods "shop" (some "app=web") ∨
      ∃ k, call = .controllers k "shop" := by
  rcases List.mem_cons.1 h with rfl | h
  · exact .inl rfl
  · rcases Resolver.mem_calls_namespaceResources.1 h with rfl | ⟨k, _, rfl⟩
    · exact .inr (.inl rfl)
    · exact .inr (.inr ⟨k, rfl⟩)

theorem gives_shopfront {call : Call}
    (h : call ∈ (Operation.app "shop" "web").reads shopfrontResolver) {answer : call.Answer}
    (hanswer : shopfront.answer? call = some answer) :
    (shopfrontResolver.call call).Gives shopfrontResolver.config.limit answer := by
  rcases mem_reads_shopfront h with rfl | rfl | ⟨k, rfl⟩
  · cases hanswer
    exact ⟨rfl, rfl⟩
  · cases hanswer
    exact ⟨rfl, rfl⟩
  · cases k
    case deployment | replicaSet | statefulSet | daemonSet =>
      cases hanswer
      exact ⟨rfl, rfl⟩
    all_goals cases hanswer

theorem shopfront_mirrored :
    (Operation.app "shop" "web").Mirrored shopfrontResolver shopfrontCache shopfront where
  serves := by decide +kernel
  holds := by
    refine Cache.holds_of_entries fun k => ?_
    cases k <;> rfl
  orderly := by
    refine ⟨fun k => ?_, fun k => ?_⟩
    · cases k <;> decide +kernel
    · cases k <;> decide +kernel
  readable text h := by
    rcases mem_reads_shopfront h with heq | heq | ⟨k, heq⟩
    · cases heq
    · cases heq
      exact ⟨_, rfl⟩
    · cases heq
  truthful call hcall answer hanswer found hfound :=
    Except.ok.inj (hfound.symm.trans (gives_shopfront hcall hanswer).result)

theorem shopfront_transparent :
    (Operation.app "shop" "web").Mirrored shopfrontResolver shopfrontCache shopfront ∧
      ((Operation.app "shop" "web").run shopfrontResolver {}).1.toOption.isSome = true ∧
      (Operation.app "shop" "web").CarriedOver shopfrontResolver
        (shopfrontResolver.throughCache shopfrontCache) ∧
      (Operation.app "shop" "web").CarriedOver
        (shopfrontResolver.throughCache shopfrontCache) shopfrontResolver := by
  obtain ⟨hover, hback⟩ := shopfront_mirrored.transparent
  refine ⟨shopfront_mirrored, by decide +kernel, hover, hback fun call hcall hsome => ?_⟩
  obtain ⟨answer, hanswer⟩ := Option.isSome_iff_exists.1 hsome
  exact ⟨answer, gives_shopfront hcall hanswer⟩

end Operation

end WorkloadMap
