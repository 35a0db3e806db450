import WorkloadMap.Proofs.Index.Children

/-!
Names that stand for one kind only. Nothing is then settled by rank, and an index has under such a
name what is claimed for it. Main statement: what is in the index of a namespace, told from its
objects alone, for one such name or for all of them.
-/
namespace WorkloadMap

namespace Resources

variable {r : Resources} {name : String}

/-- A name stands for one kind, and so do the names of the fetched children. -/
structure UnambiguousAt (r : Resources) (name : String) : Prop where
  one : ∀ kind kind', r.StandsFor name kind → r.StandsFor name kind' → kind = kind'
  children : ∀ k ∈ Index.childKinds, ∀ c ∈ r.controllers k, ∀ kind kind',
    r.StandsFor (Object.anyName c) kind → r.StandsFor (Object.anyName c) kind' → kind = kind'

theorem Unambiguous.at (h : r.Unambiguous) (name : String) : r.UnambiguousAt name :=
  ⟨h name, fun _ _ c _ => h (Object.anyName c)⟩

theorem WellNamed.eq_of_standsFor (h : r.WellNamed) {kind kind' : Kind}
    (hobject : r.contains kind name = true) (hstands : r.StandsFor name kind') : kind' = kind := by
  rcases hstands with ⟨o, ho, rfl, rfl⟩ | hobject'
  · exact h.ofName_kind_of_contains ho hobject
  · exact h.kind_eq hobject' hobject

/-- In particular the name of an object does. -/
theorem WellNamed.unambiguousAt (h : r.WellNamed) {kind : Kind}
    (hobject : r.contains kind name = true) : r.UnambiguousAt name where
  one _ _ hstands hstands' :=
    (h.eq_of_standsFor hobject hstands).trans (h.eq_of_standsFor hobject hstands').symm
  children _ _ _ hc _ _ hstands hstands' :=
    have hchild := h.contains_controller hc
    (h.eq_of_standsFor hchild hstands).trans (h.eq_of_standsFor hchild hstands').symm

end Resources

namespace Index

variable {r : Resources} {selector : Option String} {name : String} {kind : Kind}

theorem standsFor_of_claims (hnamed : r.Named) {pod : Pod} (hpod : pod ∈ r.pods)
    (hclaim : pod.Claims name kind) : r.StandsFor name kind := by
  rcases hclaim with ⟨o, ho, hclaim⟩ | ⟨_, rfl, rfl⟩
  · exact .inl ⟨o, Resources.mem_managers.2 (.inl ⟨pod, hpod, ho⟩), hclaim⟩
  · exact .inr (hnamed.contains_pod hpod)

theorem standsFor_of_mem_orphans (hnamed : r.Named) (h : (name, kind) ∈ orphans r selector) :
    r.StandsFor name kind := by
  obtain ⟨k, _, rfl, c, hc, rfl, _⟩ := mem_orphans.1 h
  exact .inr (hnamed.contains_controller hc)

/-- An entry is what is claimed for it if a claim makes an entry and no two claims differ. -/
private theorem eq_some_iff_claimed (claimed : Kind → Prop) {entry : Option Kind}
    (hsound : ∀ k, entry = some k → claimed k) (hsome : ∀ k, claimed k → entry.isSome)
    (hone : ∀ k k', claimed k → claimed k' → k = k') : entry = some kind ↔ claimed kind := by
  constructor
  · exact hsound kind
  · intro hclaimed
    obtain ⟨k, hk⟩ := Option.isSome_iff_exists.1 (hsome kind hclaimed)
    rw [hk, hone k kind (hsound k hk) hclaimed]

theorem find?_ofPods_iff (hnamed : r.Named)
    (hone : ∀ kind kind', r.StandsFor name kind → r.StandsFor name kind' → kind = kind') :
    (ofPods r.pods).find? name = some kind ↔ ∃ pod ∈ r.pods, pod.Claims name kind := by
  refine eq_some_iff_claimed (fun k => ∃ pod ∈ r.pods, pod.Claims name k) ?_ ?_ ?_
  · intro k
    exact claims_of_find?_ofPods
  · rintro k ⟨pod, hpod, hclaim⟩
    exact isSome_find?_ofPods hpod hclaim
  · rintro k k' ⟨pod, hpod, hclaim⟩ ⟨pod', hpod', hclaim'⟩
    exact hone k k' (standsFor_of_claims hnamed hpod hclaim)
      (standsFor_of_claims hnamed hpod' hclaim')

def StaysFromPods (r : Resources) (name : String) (kind : Kind) : Prop :=
  (∃ pod ∈ r.pods, pod.Claims name kind) ∧ ¬GivesWay r name kind

/-- What an owner claims of the child that some pod claims. -/
def ClaimedByOwner (r : Resources) (name : String) (kind : Kind) : Prop :=
  ∃ child childKind, (∃ pod ∈ r.pods, pod.Claims child childKind) ∧
    ∃ o ∈ ownersOf r child childKind, o.name = name ∧ Kind.ofName o.kind = kind

theorem mem_ownerClaims_iff_at (hnamed : r.Named) (hone : r.UnambiguousAt name) :
    kind ∈ (ofPods r.pods).ownerClaims r name ↔ ClaimedByOwner r name kind := by
  have hchild : ∀ child childKind, (∃ o, o ∈ ownersOf r child childKind) →
      ((ofPods r.pods).find? child = some childKind ↔
        ∃ pod ∈ r.pods, pod.Claims child childKind) := by
    rintro child childKind ⟨o, ho⟩
    obtain ⟨k, hk, c, hc, rfl, rfl, _⟩ := (mem_ownersOf_iff hnamed).1 ho
    exact find?_ofPods_iff hnamed (hone.children k hk c hc)
  rw [mem_ownerClaims]
  constructor
  · rintro ⟨child, childKind, hheld, o, ho, hclaim⟩
    exact ⟨child, childKind, (hchild child childKind ⟨o, ho⟩).1 hheld, o, ho, hclaim⟩
  · rintro ⟨child, childKind, hclaims, o, ho, hclaim⟩
    exact ⟨child, childKind, (hchild child childKind ⟨o, ho⟩).2 hclaims, o, ho, hclaim⟩

theorem standsFor_of_claimed (hnamed : r.Named)
    (h : StaysFromPods r name kind ∨ ClaimedByOwner r name kind) : r.StandsFor name kind := by
  rcases h with ⟨⟨pod, hpod, hclaim⟩, _⟩ | ⟨_, _, _, o, howner, hclaim⟩
  · exact standsFor_of_claims hnamed hpod hclaim
  · obtain ⟨k, hk, c, hc, _, _, ho⟩ := (mem_ownersOf_iff hnamed).1 howner
    exact .inl ⟨o, Resources.mem_managers.2 (.inr ⟨k, hk, c, hc, ho⟩), hclaim⟩

theorem find?_replaceChildren_iff (hnamed : r.Named) (hone : r.UnambiguousAt name) :
    ((ofPods r.pods).replaceChildren r).find? name = some kind ↔
      StaysFromPods r name kind ∨ ClaimedByOwner r name kind := by
  refine eq_some_iff_claimed (fun k => StaysFromPods r name k ∨ ClaimedByOwner r name k) ?_ ?_ ?_
  · intro k hk
    rcases held_or_claimed_of_find?_replaceChildren hk with ⟨hheld, hstays⟩ | hclaimed
    · exact .inl ⟨claims_of_find?_ofPods hheld, hstays⟩
    · exact .inr ((mem_ownerClaims_iff_at hnamed hone).1 hclaimed)
  · intro k hk
    apply isSome_find?_replaceChildren
    rcases hk with ⟨hclaims, hstays⟩ | hclaimed
    · have hheld := (find?_ofPods_iff hnamed hone.one).2 hclaims
      refine .inl ⟨by simp [hheld], fun hreplaced => ?_⟩
      obtain ⟨k', hheld', hgives⟩ := mem_replacedNames.1 hreplaced
      cases Option.some.inj (hheld.symm.trans hheld')
      exact hstays hgives
    · exact .inr ⟨k, (mem_ownerClaims_iff_at hnamed hone).2 hclaimed⟩
  · intro k k' hk hk'
    exact hone.one k k' (standsFor_of_claimed hnamed hk) (standsFor_of_claimed hnamed hk')

theorem standsFor_of_resolved (hnamed : r.Named)
    (h : (StaysFromPods r name kind ∨ ClaimedByOwner r name kind) ∨
      (name, kind) ∈ orphans r selector) : r.StandsFor name kind := by
  rcases h with hclaimed | horphan
  · exact standsFor_of_claimed hnamed hclaimed
  · exact standsFor_of_mem_orphans hnamed horphan

/-- A name that stands for one kind is in the index as what a pod or the owner of a child claims, or
as an orphan. -/
theorem find?_resolve_iff_at (hnamed : r.Named) (hone : r.UnambiguousAt name) :
    (r.resolve selector).find? name = some kind ↔
      (StaysFromPods r name kind ∨ ClaimedByOwner r name kind) ∨
        (name, kind) ∈ orphans r selector := by
  refine eq_some_iff_claimed (fun k => (StaysFromPods r name k ∨ ClaimedByOwner r name k) ∨
    (name, k) ∈ orphans r selector) ?_ ?_ ?_
  · intro k hk
    rcases held_or_orphan_of_find?_completeOrphans hk with hheld | horphan
    · exact .inl ((find?_replaceChildren_iff hnamed hone).1 hheld)
    · exact .inr horphan
  · intro k hk
    apply isSome_find?_completeOrphans
    rcases hk with hclaimed | horphan
    · exact .inl (by simp [(find?_replaceChildren_iff hnamed hone).2 hclaimed])
    · exact .inr ⟨k, horphan⟩
  · intro k k' hk hk'
    exact hone.one k k' (standsFor_of_resolved hnamed hk) (standsFor_of_resolved hnamed hk')

theorem standsFor_of_find?_resolve (hnamed : r.Named)
    (h : (r.resolve selector).find? name = some kind) : r.StandsFor name kind := by
  rcases held_or_orphan_of_find?_completeOrphans h with hheld | horphan
  · rcases held_or_claimed_of_find?_replaceChildren hheld with ⟨hpods, _⟩ | hclaimed
    · obtain ⟨pod, hpod, hclaim⟩ := claims_of_find?_ofPods hpods
      exact standsFor_of_claims hnamed hpod hclaim
    · exact .inl (exists_manager_of_mem_ownerClaims hnamed hclaimed)
  · exact standsFor_of_mem_orphans hnamed horphan

theorem mem_ownerClaims_iff (hnamed : r.Named) (hone : r.Unambiguous) :
    kind ∈ (ofPods r.pods).ownerClaims r name ↔ ClaimedByOwner r name kind :=
  mem_ownerClaims_iff_at hnamed (hone.at name)

theorem find?_resolve_iff (hnamed : r.Named) (hone : r.Unambiguous) :
    (r.resolve selector).find? name = some kind ↔
      (StaysFromPods r name kind ∨ ClaimedByOwner r name kind) ∨
        (name, kind) ∈ orphans r selector :=
  find?_resolve_iff_at hnamed (hone.at name)

end Index

end WorkloadMap
