import WorkloadMap.Proofs.NameMap
import WorkloadMap.Proofs.Index.Rank
import WorkloadMap.Proofs.Workload.Narrowed

/-!
Resolution and the order in which objects are listed. Children outrank the pods that nothing owns,
so that what gives way to its owners is the same in every order; what is left is settled by rank.
Main statement: where claims to one name differ in rank, resolution is the same in every order
exactly if every pod that nothing owns meets a ranked claim wherever it meets one without a rank.
-/
namespace WorkloadMap

namespace Resources

structure Relisted (r r' : Resources) : Prop where
  pods : r.pods.Perm r'.pods
  controllers : ∀ k, (r.controllers k).Perm (r'.controllers k)

/-- Each name with the kinds claimed for it: by the references of pods and fetched children, and by
pods that nothing owns. -/
def claims (r : Resources) : List (String × Kind) :=
  (r.managers.map fun o => (o.name, Kind.ofName o.kind)) ++
    (r.pods.filter (!·.metadata.isOwned)).map fun pod => (Object.anyName pod, .pod)

def RankedApart (r : Resources) : Prop :=
  ∀ a ∈ r.claims, ∀ b ∈ r.claims, a.1 = b.1 → a.2 ≠ b.2 → a.2.rank ≠ b.2.rank

instance (r : Resources) : Decidable r.RankedApart := by
  unfold RankedApart
  infer_instance

variable {r r' : Resources} {name : String} {kind kind' : Kind} {k : ControllerKind}

theorem mem_claims : (name, kind) ∈ r.claims ↔
    (∃ o ∈ r.managers, o.name = name ∧ Kind.ofName o.kind = kind) ∨
      ∃ pod ∈ r.pods, pod.metadata.isOwned = false ∧ Object.anyName pod = name ∧ kind = .pod := by
  simp [claims, and_assoc, eq_comm (a := Kind.pod)]

theorem mem_claims_of_pod {pod : Pod} (hpod : pod ∈ r.pods) (hclaim : pod.Claims name kind) :
    (name, kind) ∈ r.claims := by
  rcases hclaim with ⟨o, ho, hclaim⟩ | hfree
  · exact mem_claims.2 (.inl ⟨o, mem_managers.2 (.inl ⟨pod, hpod, ho⟩), hclaim⟩)
  · exact mem_claims.2 (.inr ⟨pod, hpod, hfree⟩)

theorem RankedApart.eq (h : r.RankedApart) (ha : (name, kind) ∈ r.claims)
    (hb : (name, kind') ∈ r.claims) (hstrength : kind.strength = kind'.strength) :
    kind = kind' := by
  by_contra hne
  exact h _ ha _ hb rfl hne (Kind.rank_eq_of_strength_eq hstrength)

end Resources

namespace Resources.Relisted

variable {r r' : Resources} {name : String} {kind : Kind} {k : ControllerKind} {c : Controller}

theorem symm (h : r.Relisted r') : r'.Relisted r :=
  ⟨h.pods.symm, fun k => (h.controllers k).symm⟩

theorem named (h : r.Relisted r') (hnamed : r.Named) : r'.Named := by
  refine ⟨⟨fun pod hpod => hnamed.pods.isSome pod (h.pods.mem_iff.2 hpod), ?_⟩, fun k => ⟨?_, ?_⟩⟩
  · exact (h.pods.map _).nodup_iff.1 hnamed.pods.nodup
  · exact fun c hc => (hnamed.controllers k).isSome c ((h.controllers k).mem_iff.2 hc)
  · exact ((h.controllers k).map _).nodup_iff.1 (hnamed.controllers k).nodup

theorem mem_managers_iff (h : r.Relisted r') {o : OwnerReference} :
    o ∈ r'.managers ↔ o ∈ r.managers := by
  simp only [mem_managers, h.pods.mem_iff, (h.controllers _).mem_iff]

theorem mem_claims_iff (h : r.Relisted r') {claim : String × Kind} :
    claim ∈ r'.claims ↔ claim ∈ r.claims := by
  obtain ⟨name, kind⟩ := claim
  simp only [mem_claims, h.mem_managers_iff, h.pods.mem_iff]

theorem rankedApart (h : r.Relisted r') (hranks : r.RankedApart) : r'.RankedApart :=
  fun a ha b hb => hranks a (h.mem_claims_iff.1 ha) b (h.mem_claims_iff.1 hb)

theorem managesPod_iff (h : r.Relisted r') : r'.ManagesPod name kind ↔ r.ManagesPod name kind := by
  simp only [ManagesPod, h.pods.mem_iff]

theorem controller?_eq (h : r.Relisted r') (hnamed : r.Named) (k : ControllerKind) (name : String) :
    r'.controller? k name = r.controller? k name := by
  apply Option.ext
  intro c
  rw [(h.named hnamed).controller?_eq_some_iff, hnamed.controller?_eq_some_iff,
    (h.controllers k).mem_iff]

theorem ownersOf_eq (h : r.Relisted r') (hnamed : r.Named) (name : String) (kind : Kind) :
    Index.ownersOf r' name kind = Index.ownersOf r name kind := by
  cases kind with
  | controller k => simp only [Index.ownersOf, h.controller?_eq hnamed]
  | pod => rfl
  | custom => rfl

theorem givesWay_iff (h : r.Relisted r') (hnamed : r.Named) :
    Index.GivesWay r' name kind ↔ Index.GivesWay r name kind := by
  unfold Index.GivesWay Index.isLeftBehind
  simp only [h.ownersOf_eq hnamed, h.controller?_eq hnamed]

end Resources.Relisted

namespace Index

variable {r r' : Resources} {name : String} {kind : Kind} {k : ControllerKind}

theorem mem_claims_of_mem_ownerClaims (hnamed : r.Named) {index : Index}
    (h : kind ∈ index.ownerClaims r name) : (name, kind) ∈ r.claims :=
  Resources.mem_claims.2 (.inl (exists_manager_of_mem_ownerClaims hnamed h))

theorem mem_claims_of_contends (hnamed : r.Named) (h : Contends r name kind) :
    (name, kind) ∈ r.claims := by
  rcases h with ⟨⟨pod, hpod, hclaim⟩, _⟩ | howner
  · exact Resources.mem_claims_of_pod hpod hclaim
  · exact mem_claims_of_mem_ownerClaims hnamed howner

theorem managesPod_of_strong (hentry : (ofPods r.pods).find? name = some kind)
    (hstrong : 1 < kind.strength) : r.ManagesPod name kind :=
  managesPod_of_find?_ofPods hentry (Kind.ne_pod_of_strength_ne_one hstrong.ne')

theorem mem_claims_of_managesPod (h : r.ManagesPod name kind) : (name, kind) ∈ r.claims := by
  obtain ⟨pod, hpod, hclaim⟩ := h
  exact Resources.mem_claims_of_pod hpod (.inl hclaim)

/-- What outranks a pod stands for its name in every order of the pods. -/
theorem find?_ofPods_of_strong (h : r.Relisted r') (hranks : r.RankedApart)
    (hentry : (ofPods r.pods).find? name = some kind) (hstrong : 1 < kind.strength) :
    (ofPods r'.pods).find? name = some kind := by
  have hmanages := managesPod_of_strong hentry hstrong
  -- The entries in both orders are claimed by references, and neither is outdone by the other.
  obtain ⟨held, hheld, hle⟩ := reaches_ofPods (h.managesPod_iff.2 hmanages)
  have hmanages' : r.ManagesPod name held :=
    h.managesPod_iff.1 (managesPod_of_strong hheld (hstrong.trans_le hle))
  obtain ⟨kind', hentry', hle'⟩ := reaches_ofPods hmanages'
  cases Option.some.inj (hentry.symm.trans hentry')
  rw [hheld, hranks.eq (mem_claims_of_managesPod hmanages) (mem_claims_of_managesPod hmanages')
    (le_antisymm hle hle')]

theorem find?_ofPods_child_iff (h : r.Relisted r') (hranks : r.RankedApart) (hk : k ∈ childKinds) :
    (ofPods r'.pods).find? name = some (.controller k) ↔
      (ofPods r.pods).find? name = some (.controller k) := by
  have hstrong := Kind.one_lt_strength_of_child hk
  constructor
  · intro hentry
    exact find?_ofPods_of_strong h.symm (h.rankedApart hranks) hentry hstrong
  · intro hentry
    exact find?_ofPods_of_strong h hranks hentry hstrong

theorem mem_ownerClaims_relisted (h : r.Relisted r') (hnamed : r.Named) (hranks : r.RankedApart) :
    kind ∈ (ofPods r'.pods).ownerClaims r' name ↔ kind ∈ (ofPods r.pods).ownerClaims r name := by
  rw [mem_ownerClaims, mem_ownerClaims]
  simp only [h.ownersOf_eq hnamed]
  refine exists_congr fun child => exists_congr fun childKind => and_congr_left ?_
  rintro ⟨o, howner, _⟩
  obtain ⟨k, hk, rfl, _⟩ := mem_ownersOf.1 howner
  exact find?_ofPods_child_iff h hranks hk

theorem mem_replacedNames_relisted (h : r.Relisted r') (hnamed : r.Named)
    (hranks : r.RankedApart) :
    name ∈ (ofPods r'.pods).replacedNames r' ↔ name ∈ (ofPods r.pods).replacedNames r := by
  rw [mem_replacedNames, mem_replacedNames]
  simp only [h.givesWay_iff hnamed]
  refine exists_congr fun kind => and_congr_left ?_
  rintro ⟨o, howner, _⟩
  obtain ⟨k, hk, rfl, _⟩ := mem_ownersOf.1 howner
  exact find?_ofPods_child_iff h hranks hk

theorem contends_relisted (h : r.Relisted r') (hnamed : r.Named) (hranks : r.RankedApart) :
    Contends r' name kind ↔ Contends r name kind := by
  unfold Contends
  simp only [mem_replacedNames_relisted h hnamed hranks, mem_ownerClaims_relisted h hnamed hranks,
    h.pods.mem_iff]

theorem lookup_orphans_relisted (h : r.Relisted r') (selector : Option String) :
    (orphans r' selector).lookup name = (orphans r selector).lookup name := by
  unfold orphans
  apply lookup_flatMap_congr
  intro k _
  rw [lookup_map_const, lookup_map_const]
  congr 1
  simp only [List.mem_filter, (h.controllers k).mem_iff]

end Index

namespace Resources

variable {r r' : Resources} {name : String} {kind : Kind} {k : ControllerKind}

theorem Settled.relisted (hsettled : r.Settled) (h : r.Relisted r') (hnamed : r.Named)
    (hranks : r.RankedApart) : r'.Settled := by
  intro pod hpod hfree kind hkind hmanages
  obtain ⟨ranked, hranked, hclaimed⟩ :=
    hsettled pod (h.pods.mem_iff.2 hpod) hfree kind hkind (h.managesPod_iff.1 hmanages)
  refine ⟨ranked, hranked, ?_⟩
  rwa [h.managesPod_iff, Index.mem_ownerClaims_relisted h hnamed hranks]

theorem Settled.resolve_eq (hsettled : r.Settled) (h : r.Relisted r') (hnamed : r.Named)
    (hranks : r.RankedApart) (selector : Option String) :
    r'.resolve selector = r.resolve selector := by
  refine NameMap.ext_find? fun name => ?_
  have hheads := Index.heads_replaceChildren hsettled name
  have hheads' := Index.heads_replaceChildren (hsettled.relisted h hnamed hranks) name
  have hcontends : Index.Contends r' name = Index.Contends r name :=
    funext fun _ => propext (Index.contends_relisted h hnamed hranks)
  rw [hcontends] at hheads'
  have hentry := hheads'.eq (fun kind kind' hkind hkind' => hranks.eq
    (Index.mem_claims_of_contends hnamed hkind) (Index.mem_claims_of_contends hnamed hkind')) hheads
  unfold resolve
  rw [Index.find?_completeOrphans, Index.find?_completeOrphans, hentry,
    Index.lookup_orphans_relisted h]

def withPodFirst (r : Resources) (pod : Pod) : Resources :=
  { r with pods := pod :: r.pods.erase pod }

theorem relisted_withPodFirst {pod : Pod} (hpod : pod ∈ r.pods) :
    r.Relisted (r.withPodFirst pod) :=
  ⟨List.perm_cons_erase hpod, fun _ => .refl _⟩

end Resources

namespace Index

variable {r : Resources} {index : Index} {pod : Pod} {name : String} {held kind : Kind}

/-- Once a name is taken, only owners can change what it stands for. -/
theorem held_or_managed_of_find?_addPod (hheld : index.find? name = some held)
    (h : (index.addPod pod).find? name = some kind) :
    kind = held ∨ ∃ o ∈ pod.metadata.controllers, o.name = name ∧ Kind.ofName o.kind = kind := by
  rw [find?_addPod, hheld] at h
  split at h
  · rcases Kind.mem_of_afterClaims h with hsame | hclaimed
    · exact .inl (Option.some.inj hsame).symm
    · exact .inr (mem_claimsOn.1 hclaimed)
  · split at h
    · exact .inl (Option.some.inj h).symm
    · exact .inl (Option.some.inj h).symm

theorem held_or_managed_of_foldl_addPod {pods : List Pod} (hheld : index.find? name = some held)
    (h : (pods.foldl addPod index).find? name = some kind) :
    kind = held ∨ ∃ pod ∈ pods, ∃ o ∈ pod.metadata.controllers,
      o.name = name ∧ Kind.ofName o.kind = kind := by
  induction pods generalizing index held with
  | nil => exact .inl (Option.some.inj (h.symm.trans hheld))
  | cons pod pods ih =>
    have hsome : ((index.addPod pod).find? name).isSome :=
      isSome_find?_addPod (.inl (by simp [hheld]))
    obtain ⟨next, hnext⟩ := Option.isSome_iff_exists.1 hsome
    rcases ih hnext h with rfl | ⟨p, hp, hclaim⟩
    · rcases held_or_managed_of_find?_addPod hheld hnext with hsame | hclaim
      · exact .inl hsame
      · exact .inr ⟨pod, List.mem_cons_self, hclaim⟩
    · exact .inr ⟨p, List.mem_cons_of_mem pod hp, hclaim⟩

theorem reaches_ofPods_cons {n : Nat} (h : (addPod ∅ pod).Reaches name n) (pods : List Pod) :
    (ofPods (pod :: pods)).Reaches name n :=
  reaches_foldl_addPod h pods

theorem find?_resolve_of_held (hheld : (ofPods r.pods).find? name = some held)
    (hchild : ∀ k ∈ childKinds, held ≠ .controller k) (selector : Option String) :
    ∃ kind, (r.resolve selector).find? name = some kind ∧ held.strength ≤ kind.strength ∧
      (held = kind ∨ kind ∈ (ofPods r.pods).ownerClaims r name) := by
  have hstays : name ∉ (ofPods r.pods).replacedNames r := by
    intro hreplaced
    obtain ⟨kind, hkind, hgives⟩ := mem_replacedNames.1 hreplaced
    cases Option.some.inj (hheld.symm.trans hkind)
    exact not_givesWay hchild hgives
  obtain ⟨kind, hkind, hle⟩ := (Kind.heads_afterClaims (some held)
    ((ofPods r.pods).ownerClaims r name)).exists_le (.inl rfl)
  have hentry : ((ofPods r.pods).replaceChildren r).find? name = some kind := by
    rw [find?_replaceChildren, if_neg hstays, hheld, hkind]
  refine ⟨kind, ?_, hle, ?_⟩
  · unfold Resources.resolve
    rw [find?_completeOrphans, hentry]
    rfl
  · rcases Kind.mem_of_afterClaims hkind with hsame | hclaimed
    · exact .inl (Option.some.inj hsame)
    · exact .inr hclaimed

theorem ne_child_of_strength_le_one (h : held.strength ≤ 1) :
    ∀ k ∈ childKinds, held ≠ .controller k := by
  rintro k hk rfl
  have := Kind.one_lt_strength_of_child hk
  omega

/-- Listed first, a pod that nothing owns keeps its name from every kind without a rank. -/
theorem ranked_of_free_first (hpod : pod ∈ r.pods) (hfree : pod.metadata.isOwned = false)
    (hunranked : ∀ kind, r.ManagesPod (Object.anyName pod) kind → kind.isRanked = false) :
    ∃ kind, ((r.withPodFirst pod).resolve none).find? (Object.anyName pod) = some kind ∧
      kind.isRanked = true := by
  obtain ⟨held, hheld, hreached⟩ :
      (ofPods (r.withPodFirst pod).pods).Reaches (Object.anyName pod) 1 :=
    reaches_ofPods_cons ⟨.pod, by simp [find?_addPod, hfree], le_rfl⟩ _
  have hpodKind : held = .pod := by
    by_contra hne
    have hmanages := managesPod_of_find?_ofPods hheld hne
    have hmanages' := (Resources.relisted_withPodFirst hpod).managesPod_iff.1 hmanages
    have hzero := Kind.not_isRanked_iff.1 (hunranked held hmanages')
    omega
  subst hpodKind
  obtain ⟨kind, hkind, hle, _⟩ :=
    find?_resolve_of_held hheld (ne_child_of_strength_le_one le_rfl) none
  exact ⟨kind, hkind, Kind.isRanked_iff.2 hle⟩

/-- Listed first, a pod that is managed by a kind without a rank keeps a name from the pod that
bears it, unless there is a ranked claim to it. -/
theorem unranked_of_managed_first (hpod : pod ∈ r.pods) (hnamed : r.Named)
    (hranks : r.RankedApart) {o : OwnerReference} (ho : o ∈ pod.metadata.controllers)
    (hunranked : ∀ kind, r.ManagesPod o.name kind ∨
      kind ∈ (ofPods r.pods).ownerClaims r o.name → kind.isRanked = false) :
    ∃ kind, ((r.withPodFirst pod).resolve none).find? o.name = some kind ∧
      kind.isRanked = false := by
  have hrelisted := Resources.relisted_withPodFirst hpod
  obtain ⟨first, hfirst, _⟩ := reaches_addPod_of_owner ∅ ho
  have hfirstUnranked : first.isRanked = false := by
    rcases claims_of_find?_addPod hfirst with hempty | ⟨o', ho', hclaim⟩ | ⟨hfree, _⟩
    · simp at hempty
    · exact hunranked first (.inl ⟨pod, hpod, o', ho', hclaim⟩)
    · simp [Meta.isOwned_of_mem_controllers ho] at hfree
  obtain ⟨held, hheld, _⟩ : (ofPods (r.withPodFirst pod).pods).Reaches o.name 0 :=
    reaches_ofPods_cons ⟨first, hfirst, Nat.zero_le _⟩ _
  have hheldUnranked : held.isRanked = false := by
    rcases held_or_managed_of_foldl_addPod hfirst hheld with rfl | ⟨p, hp, hclaim⟩
    · exact hfirstUnranked
    · exact hunranked held (.inl ⟨p, List.mem_of_mem_erase hp, hclaim⟩)
  have hweak : held.strength ≤ 1 := by simp [Kind.not_isRanked_iff.1 hheldUnranked]
  obtain ⟨kind, hkind, _, rfl | hclaimed⟩ :=
    find?_resolve_of_held hheld (ne_child_of_strength_le_one hweak) none
  · exact ⟨held, hkind, hheldUnranked⟩
  · rw [mem_ownerClaims_relisted hrelisted hnamed hranks] at hclaimed
    exact ⟨kind, hkind, hunranked kind (.inr hclaimed)⟩

end Index

namespace Resources

variable {r : Resources}

theorem settled_of_resolve_eq (hnamed : r.Named) (hranks : r.RankedApart)
    (h : ∀ r', r.Relisted r' → r'.resolve none = r.resolve none) : r.Settled := by
  intro pod hpod hfree kind hkind ⟨manager, hmanager, o, ho, hname, hclaim⟩
  by_contra hnone
  -- Were no ranked kind claimed, the pod and its rival would each win where they are listed first.
  have hunranked : ∀ kind, r.ManagesPod (Object.anyName pod) kind ∨
      kind ∈ (Index.ofPods r.pods).ownerClaims r (Object.anyName pod) → kind.isRanked = false := by
    intro kind hclaimed
    by_contra hranked
    exact hnone ⟨kind, by simpa using hranked, hclaimed⟩
  obtain ⟨ranked, hentry, hranked⟩ :=
    Index.ranked_of_free_first hpod hfree fun kind hmanages => hunranked kind (.inl hmanages)
  obtain ⟨unranked, hentry', hunranked'⟩ :=
    Index.unranked_of_managed_first hmanager hnamed hranks ho (by rwa [hname])
  rw [h _ (relisted_withPodFirst hpod)] at hentry
  rw [h _ (relisted_withPodFirst hmanager), hname] at hentry'
  cases Option.some.inj (hentry.symm.trans hentry')
  rw [hranked] at hunranked'
  cases hunranked'

/-- Where claims to one name differ in rank, resolution does not depend on the order of the objects
exactly if no pod that nothing owns meets only claims without a rank. -/
theorem resolve_relisted_iff (hnamed : r.Named) (hranks : r.RankedApart) :
    (∀ r', r.Relisted r' → ∀ selector, r'.resolve selector = r.resolve selector) ↔ r.Settled := by
  constructor
  · intro h
    exact settled_of_resolve_eq hnamed hranks fun r' hr' => h r' hr' none
  · intro hsettled r' hr' selector
    exact hsettled.resolve_eq hr' hnamed hranks selector

theorem shop_resolve_relisted :
    shop.Named ∧ shop.RankedApart ∧
      ((∀ r', shop.Relisted r' → ∀ selector, r'.resolve selector = shop.resolve selector) ↔
        shop.Settled) :=
  have hnamed : shop.Named := by decide +kernel
  have hranks : shop.RankedApart := by decide +kernel
  ⟨hnamed, hranks, resolve_relisted_iff hnamed hranks⟩

/-- A pod that nothing owns, and one that is managed by a custom kind under its name. -/
def contested : Resources where
  pods := [
    { metadata := { name := some "web-a", owners := [⟨"Rollout", "web", true⟩] } },
    { metadata := { name := some "web" } }]

theorem contested_resolve_depends :
    contested.Named ∧ contested.RankedApart ∧
      ∃ r', contested.Relisted r' ∧ r'.resolve none ≠ contested.resolve none := by
  refine ⟨by decide +kernel, by decide +kernel, ⟨contested.pods.reverse, fun _ => []⟩, ?_, ?_⟩
  · exact ⟨(List.reverse_perm _).symm, fun _ => .refl _⟩
  · decide +kernel

end Resources

end WorkloadMap
