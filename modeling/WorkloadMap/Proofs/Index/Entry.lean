import WorkloadMap.Index

/-!
What the passes over an index make of one name. Each pass is a fold over claims to many names; what
it leaves under one name is the fold over the claims to that name alone. Main statements: the entry
of a name after the claims of some owners, after the pods, after the children are replaced, and
after the orphans are added.
-/
namespace WorkloadMap

namespace Kind

def afterClaim (held : Option Kind) (kind : Kind) : Kind :=
  match held with
  | none => kind
  | some held => held.stronger kind

/-- What a name stands for after a sequence of claims to it. -/
def afterClaims (held : Option Kind) (kinds : List Kind) : Option Kind :=
  kinds.foldl (fun held kind => some (afterClaim held kind)) held

@[simp] theorem afterClaims_nil (held : Option Kind) : afterClaims held [] = held := rfl

@[simp] theorem afterClaims_cons (held : Option Kind) (kind : Kind) (kinds : List Kind) :
    afterClaims held (kind :: kinds) = afterClaims (some (afterClaim held kind)) kinds := rfl

theorem afterClaims_append (held : Option Kind) (kinds kinds' : List Kind) :
    afterClaims held (kinds ++ kinds') = afterClaims (afterClaims held kinds) kinds' :=
  List.foldl_append

/-- A claim is settled between the two that make it. -/
theorem afterClaim_eq_or (held : Option Kind) (kind : Kind) :
    held = some (afterClaim held kind) ∨ afterClaim held kind = kind := by
  cases held with
  | none => exact .inr rfl
  | some held =>
    simp only [afterClaim, stronger]
    split
    · exact .inl rfl
    · exact .inr rfl

theorem afterClaims_eq_none {held : Option Kind} {kinds : List Kind} :
    afterClaims held kinds = none ↔ held = none ∧ kinds = [] := by
  induction kinds generalizing held with
  | nil => simp
  | cons kind kinds ih => simp [ih]

theorem mem_of_afterClaims {held : Option Kind} {kinds : List Kind} {kind : Kind}
    (h : afterClaims held kinds = some kind) : held = some kind ∨ kind ∈ kinds := by
  induction kinds generalizing held with
  | nil => exact .inl h
  | cons first kinds ih =>
    rcases ih h with hfirst | hrest
    · have hsettled : afterClaim held first = kind := Option.some.inj hfirst
      rcases afterClaim_eq_or held first with hheld | hclaimed
      · exact .inl (hsettled ▸ hheld)
      · exact .inr (by simp [← hsettled, hclaimed])
    · exact .inr (List.mem_cons_of_mem _ hrest)

end Kind

namespace Index

/-- The kinds that some owners claim for a name, in their order. -/
def claimsOn (name : String) (owners : List OwnerReference) : List Kind :=
  (owners.filter (·.name == name)).map fun o => Kind.ofName o.kind

@[simp] theorem mem_claimsOn {name : String} {owners : List OwnerReference} {kind : Kind} :
    kind ∈ claimsOn name owners ↔ ∃ o ∈ owners, o.name = name ∧ Kind.ofName o.kind = kind := by
  simp [claimsOn, and_assoc]

theorem find?_claim (index : Index) (name other : String) (kind : Kind) :
    (index.claim other kind).find? name =
      if name = other then some (Kind.afterClaim (index.find? other) kind)
      else index.find? name := by
  unfold claim
  rw [NameMap.find?_update]
  cases index.find? other <;> rfl

theorem find?_claimAll (index : Index) (owners : List OwnerReference) (name : String) :
    (index.claimAll owners).find? name =
      Kind.afterClaims (index.find? name) (claimsOn name owners) := by
  unfold claimAll
  induction owners generalizing index with
  | nil => rfl
  | cons o owners ih =>
    rw [List.foldl_cons, ih, find?_claim]
    by_cases ho : name = o.name
    · subst ho
      simp [claimsOn]
    · have ho' : (o.name == name) = false := beq_eq_false_iff_ne.2 (Ne.symm ho)
      simp [claimsOn, ho, ho']

end Index

/-- A pod claims a name for each controller it refers to, or its own name if nothing owns it. -/
def Pod.Claims (pod : Pod) (name : String) (kind : Kind) : Prop :=
  (∃ o ∈ pod.metadata.controllers, o.name = name ∧ Kind.ofName o.kind = kind) ∨
    (pod.metadata.isOwned = false ∧ Object.anyName pod = name ∧ kind = .pod)

theorem Meta.isOwned_of_mem_controllers {m : Meta} {o : OwnerReference} (h : o ∈ m.controllers) :
    m.isOwned = true := by
  have hmem : o ∈ m.owners := (List.mem_filter.1 h).1
  unfold isOwned
  cases howners : m.owners with
  | nil => simp [howners] at hmem
  | cons => rfl

namespace Index

theorem find?_addPod (index : Index) (pod : Pod) (name : String) :
    (index.addPod pod).find? name =
      if pod.metadata.isOwned then
        Kind.afterClaims (index.find? name) (claimsOn name pod.metadata.controllers)
      else if name = Object.anyName pod then some ((index.find? name).getD .pod)
      else index.find? name := by
  unfold addPod
  split
  · exact index.find?_claimAll _ name
  · rw [NameMap.find?_insertIfAbsent]
    split
    next hname => rw [hname]
    next => rfl

theorem claims_of_find?_addPod {index : Index} {pod : Pod} {name : String} {kind : Kind}
    (h : (index.addPod pod).find? name = some kind) :
    index.find? name = some kind ∨ pod.Claims name kind := by
  rw [find?_addPod] at h
  split at h
  next howned =>
    rcases Kind.mem_of_afterClaims h with hheld | hclaimed
    · exact .inl hheld
    · exact .inr (.inl (mem_claimsOn.1 hclaimed))
  next howned =>
    split at h
    next hname =>
      cases hheld : index.find? name with
      | some held => rw [hheld] at h; exact .inl h
      | none =>
        rw [hheld] at h
        have hkind : kind = .pod := (Option.some.inj h).symm
        exact .inr (.inr ⟨by simpa using howned, hname.symm, hkind⟩)
    next => exact .inl h

theorem isSome_find?_addPod {index : Index} {pod : Pod} {name : String}
    (h : (index.find? name).isSome ∨ ∃ kind, pod.Claims name kind) :
    ((index.addPod pod).find? name).isSome := by
  rw [find?_addPod]
  split
  next howned =>
    rw [Option.isSome_iff_ne_none]
    intro hnone
    obtain ⟨hheld, hclaims⟩ := Kind.afterClaims_eq_none.1 hnone
    rcases h with h | ⟨kind, hclaim | ⟨hfree, _⟩⟩
    · simp [hheld] at h
    · have : kind ∈ claimsOn name pod.metadata.controllers := mem_claimsOn.2 hclaim
      simp [hclaims] at this
    · simp [howned] at hfree
  next howned =>
    split
    · rfl
    next hname =>
      rcases h with h | ⟨kind, ⟨o, ho, _⟩ | ⟨_, hown, _⟩⟩
      · exact h
      · exact absurd (Meta.isOwned_of_mem_controllers ho) howned
      · exact absurd hown.symm hname

private theorem claims_of_foldl_addPod {pods : List Pod} {index : Index} {name : String}
    {kind : Kind} (h : (pods.foldl addPod index).find? name = some kind) :
    index.find? name = some kind ∨ ∃ pod ∈ pods, pod.Claims name kind := by
  induction pods generalizing index with
  | nil => exact .inl h
  | cons pod pods ih =>
    rcases ih h with hfirst | ⟨p, hp, hclaim⟩
    · rcases claims_of_find?_addPod hfirst with hheld | hclaim
      · exact .inl hheld
      · exact .inr ⟨pod, by simp, hclaim⟩
    · exact .inr ⟨p, List.mem_cons_of_mem _ hp, hclaim⟩

private theorem isSome_foldl_addPod {pods : List Pod} {index : Index} {name : String}
    (h : (index.find? name).isSome ∨ ∃ pod ∈ pods, ∃ kind, pod.Claims name kind) :
    ((pods.foldl addPod index).find? name).isSome := by
  induction pods generalizing index with
  | nil => simpa using h
  | cons pod pods ih =>
    apply ih
    rcases h with h | ⟨p, hp, hclaim⟩
    · exact .inl (isSome_find?_addPod (.inl h))
    · rcases List.mem_cons.1 hp with rfl | hp
      · exact .inl (isSome_find?_addPod (.inr hclaim))
      · exact .inr ⟨p, hp, hclaim⟩

theorem claims_of_find?_ofPods {pods : List Pod} {name : String} {kind : Kind}
    (h : (ofPods pods).find? name = some kind) : ∃ pod ∈ pods, pod.Claims name kind := by
  rcases claims_of_foldl_addPod h with hempty | hclaim
  · simp at hempty
  · exact hclaim

theorem isSome_find?_ofPods {pods : List Pod} {pod : Pod} {name : String} {kind : Kind}
    (hpod : pod ∈ pods) (hclaim : pod.Claims name kind) : ((ofPods pods).find? name).isSome :=
  isSome_foldl_addPod (.inr ⟨pod, hpod, kind, hclaim⟩)

/-! The children and their owners. -/

theorem mem_childKinds {k : ControllerKind} :
    k ∈ childKinds ↔ k = .replicaSet ∨ k = .replicationController ∨ k = .job := by
  simp [childKinds]

theorem mem_ownersOf {r : Resources} {name : String} {kind : Kind} {o : OwnerReference} :
    o ∈ ownersOf r name kind ↔
      ∃ k ∈ childKinds, kind = .controller k ∧
        ∃ c, r.controller? k name = some c ∧ o ∈ c.metadata.controllers := by
  constructor
  · intro h
    unfold ownersOf at h
    split at h
    next k =>
      split at h
      next hk =>
        split at h
        next c hc => exact ⟨k, hk, rfl, c, hc, h⟩
        next => simp at h
      next => simp at h
    next => simp at h
  · rintro ⟨k, hk, rfl, c, hc, ho⟩
    simpa [ownersOf, hk, hc] using ho

theorem mem_hops {index : Index} {r : Resources} {name : String} {kind : Kind}
    {o : OwnerReference} :
    (name, kind, o) ∈ index.hops r ↔
      index.find? name = some kind ∧ o ∈ ownersOf r name kind := by
  rw [← NameMap.mem_entries_iff]
  unfold hops
  rw [List.mem_flatMap]
  constructor
  · rintro ⟨⟨n, k⟩, hentry, hmap⟩
    obtain ⟨o', ho, heq⟩ := List.mem_map.1 hmap
    cases heq
    exact ⟨hentry, ho⟩
  · rintro ⟨hentry, ho⟩
    exact ⟨(name, kind), hentry, List.mem_map.2 ⟨o, ho, rfl⟩⟩

/-- An entry gives way if one of the owners of its object takes over. -/
def GivesWay (r : Resources) (name : String) (kind : Kind) : Prop :=
  ∃ o ∈ ownersOf r name kind, isLeftBehind r kind o = false

def replacedNames (index : Index) (r : Resources) : List String :=
  ((index.hops r).filter fun (_, kind, owner) => !isLeftBehind r kind owner).map (·.1)

theorem mem_replacedNames {index : Index} {r : Resources} {name : String} :
    name ∈ index.replacedNames r ↔ ∃ kind, index.find? name = some kind ∧ GivesWay r name kind := by
  unfold replacedNames
  rw [List.mem_map]
  constructor
  · rintro ⟨⟨n, kind, o⟩, hfilter, rfl⟩
    obtain ⟨hhop, hstays⟩ := List.mem_filter.1 hfilter
    obtain ⟨hheld, ho⟩ := mem_hops.1 hhop
    exact ⟨kind, hheld, o, ho, by simpa using hstays⟩
  · rintro ⟨kind, hheld, o, ho, hstays⟩
    exact ⟨(name, kind, o), List.mem_filter.2 ⟨mem_hops.2 ⟨hheld, ho⟩, by simpa using hstays⟩, rfl⟩

/-- What the owners of the children in an index claim for a name. -/
def ownerClaims (index : Index) (r : Resources) (name : String) : List Kind :=
  claimsOn name ((index.hops r).map fun (_, _, owner) => owner)

theorem mem_ownerClaims {index : Index} {r : Resources} {name : String} {kind : Kind} :
    kind ∈ index.ownerClaims r name ↔
      ∃ child childKind, index.find? child = some childKind ∧
        ∃ o ∈ ownersOf r child childKind, o.name = name ∧ Kind.ofName o.kind = kind := by
  unfold ownerClaims
  rw [mem_claimsOn]
  constructor
  · rintro ⟨o, ho, hclaim⟩
    obtain ⟨⟨child, childKind, o'⟩, hhop, rfl⟩ := List.mem_map.1 ho
    obtain ⟨hheld, howner⟩ := mem_hops.1 hhop
    exact ⟨child, childKind, hheld, o', howner, hclaim⟩
  · rintro ⟨child, childKind, hheld, o, howner, hclaim⟩
    exact ⟨o, List.mem_map.2 ⟨(child, childKind, o), mem_hops.2 ⟨hheld, howner⟩, rfl⟩, hclaim⟩

theorem find?_replaceChildren (index : Index) (r : Resources) (name : String) :
    (index.replaceChildren r).find? name =
      Kind.afterClaims (if name ∈ index.replacedNames r then none else index.find? name)
        (index.ownerClaims r name) := by
  unfold replaceChildren
  rw [find?_claimAll, NameMap.find?_foldl_erase]
  rfl

theorem held_or_claimed_of_find?_replaceChildren {index : Index} {r : Resources} {name : String}
    {kind : Kind} (h : (index.replaceChildren r).find? name = some kind) :
    (index.find? name = some kind ∧ ¬GivesWay r name kind) ∨ kind ∈ index.ownerClaims r name := by
  rw [find?_replaceChildren] at h
  rcases Kind.mem_of_afterClaims h with hheld | hclaimed
  · split at hheld
    next => simp at hheld
    next hstays =>
      exact .inl ⟨hheld, fun hgives => hstays (mem_replacedNames.2 ⟨kind, hheld, hgives⟩)⟩
  · exact .inr hclaimed

theorem isSome_find?_replaceChildren {index : Index} {r : Resources} {name : String}
    (h : ((index.find? name).isSome ∧ name ∉ index.replacedNames r) ∨
      ∃ kind, kind ∈ index.ownerClaims r name) :
    ((index.replaceChildren r).find? name).isSome := by
  rw [Option.isSome_iff_ne_none, find?_replaceChildren]
  intro hnone
  obtain ⟨hheld, hclaims⟩ := Kind.afterClaims_eq_none.1 hnone
  rcases h with ⟨hsome, hstays⟩ | ⟨kind, hclaimed⟩
  · rw [if_neg hstays] at hheld
    simp [hheld] at hsome
  · simp [hclaims] at hclaimed

/-! The orphans. -/

theorem mem_orphans {r : Resources} {selector : Option String} {name : String} {kind : Kind} :
    (name, kind) ∈ orphans r selector ↔
      ∃ k ∈ orphanKinds, kind = .controller k ∧ ∃ c ∈ r.controllers k,
        Object.anyName c = name ∧ standsAlone k c = true ∧ templateSelected selector c = true := by
  unfold orphans
  rw [List.mem_flatMap]
  constructor
  · rintro ⟨k, hk, hmap⟩
    obtain ⟨c, hfilter, heq⟩ := List.mem_map.1 hmap
    obtain ⟨hc, hadded⟩ := List.mem_filter.1 hfilter
    obtain ⟨halone, hselected⟩ := (Bool.and_eq_true _ _).to_iff.1 hadded
    cases heq
    exact ⟨k, hk, rfl, c, hc, rfl, halone, hselected⟩
  · rintro ⟨k, hk, rfl, c, hc, rfl, halone, hselected⟩
    exact ⟨k, hk, List.mem_map.2
      ⟨c, List.mem_filter.2 ⟨hc, by rw [halone, hselected]; rfl⟩, rfl⟩⟩

/-- An orphan takes a name that nothing else holds; of several orphans the first does. -/
theorem find?_completeOrphans (index : Index) (r : Resources) (selector : Option String)
    (name : String) :
    (index.completeOrphans r selector).find? name =
      (index.find? name).or ((orphans r selector).lookup name) :=
  NameMap.find?_foldl_insertIfAbsent _ index name

theorem held_or_orphan_of_find?_completeOrphans {index : Index} {r : Resources}
    {selector : Option String} {name : String} {kind : Kind}
    (h : (index.completeOrphans r selector).find? name = some kind) :
    index.find? name = some kind ∨ (name, kind) ∈ orphans r selector := by
  rw [find?_completeOrphans] at h
  rcases Option.or_eq_some_iff.1 h with hheld | ⟨_, hlookup⟩
  · exact .inl hheld
  · obtain ⟨before, after, heq, _⟩ := List.lookup_eq_some_iff.1 hlookup
    exact .inr (by simp [heq])

theorem isSome_find?_completeOrphans {index : Index} {r : Resources} {selector : Option String}
    {name : String} (h : (index.find? name).isSome ∨ ∃ kind, (name, kind) ∈ orphans r selector) :
    ((index.completeOrphans r selector).find? name).isSome := by
  rw [find?_completeOrphans, Option.isSome_or, Bool.or_eq_true]
  rcases h with hheld | ⟨kind, horphan⟩
  · exact .inl hheld
  · exact .inr (List.lookup_isSome_iff.2 ⟨(name, kind), horphan, by simp⟩)

end Index

end WorkloadMap
