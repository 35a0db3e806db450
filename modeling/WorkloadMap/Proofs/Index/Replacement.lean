import WorkloadMap.Proofs.Index.Rank

/-!
The children of any index, and the owners that come in for them. A name may be a child, the owner of
a child and claimed by several kinds at once. Main statement: what replacing the children keeps,
raises, drops and adds, name by name, whatever index it starts from.
-/
namespace WorkloadMap.Index

variable {index : Index} {r : Resources} {name child : String} {kind : Kind} {o : OwnerReference}

/-- The entry of a ReplicaSet, a ReplicationController or a Job, of which kind the first object of
that name is managed by the owner. -/
def IsManagedBy (index : Index) (r : Resources) (child : String) (o : OwnerReference) : Prop :=
  ∃ k, (k = .replicaSet ∨ k = .replicationController ∨ k = .job) ∧
    index.find? child = some (.controller k) ∧
      ∃ c, r.controller? k child = some c ∧ o ∈ c.metadata.controllers

def IsChild (index : Index) (r : Resources) (name : String) : Prop :=
  ∃ o, index.IsManagedBy r name o

def IsOwner (index : Index) (r : Resources) (name : String) : Prop :=
  ∃ child o, index.IsManagedBy r child o ∧ o.name = name

/-- A Job that has outlived all of its owners, which are CronJobs. -/
def IsOutlasting (index : Index) (r : Resources) (name : String) : Prop :=
  index.find? name = some (.controller .job) ∧ ∀ o, index.IsManagedBy r name o →
    Kind.ofName o.kind = .controller .cronJob ∧ r.contains (.controller .cronJob) o.name = false

/-- What is left of an index, and what has come into it, once its children have given way. -/
structure HandsOver (index : Index) (r : Resources) (after : Index) : Prop where
  keeps : ∀ name kind, index.find? name = some kind → ¬index.IsChild r name →
    ∃ kind', after.find? name = some kind' ∧ kind.RanksAtMost kind'
  spares : ∀ name, ¬index.IsChild r name → ¬index.IsOwner r name →
    after.find? name = index.find? name
  /-- This holds also of the owners of a child that stays. -/
  raises : ∀ child o, index.IsManagedBy r child o →
    ∃ kind', after.find? o.name = some kind' ∧ (Kind.ofName o.kind).RanksAtMost kind'
  drops : ∀ name, index.IsChild r name → ¬index.IsOwner r name → ¬index.IsOutlasting r name →
    after.find? name = none
  adds : ∀ name, (after.find? name).isSome → (index.find? name).isSome ∨ index.IsOwner r name

theorem isManagedBy_iff : index.IsManagedBy r child o ↔
    ∃ kind, index.find? child = some kind ∧ o ∈ ownersOf r child kind := by
  simp only [mem_ownersOf, mem_childKinds]
  constructor
  · rintro ⟨k, hk, hentry, hmanaged⟩
    exact ⟨_, hentry, k, hk, rfl, hmanaged⟩
  · rintro ⟨_, hentry, k, hk, rfl, hmanaged⟩
    exact ⟨k, hk, hentry, hmanaged⟩

theorem mem_ownerClaims_iff_isManagedBy : kind ∈ index.ownerClaims r name ↔
    ∃ child o, index.IsManagedBy r child o ∧ o.name = name ∧ Kind.ofName o.kind = kind := by
  simp only [mem_ownerClaims, isManagedBy_iff]
  constructor
  · rintro ⟨child, childKind, hentry, o, howner, hclaim⟩
    exact ⟨child, o, ⟨childKind, hentry, howner⟩, hclaim⟩
  · rintro ⟨child, o, ⟨childKind, hentry, howner⟩, hclaim⟩
    exact ⟨child, childKind, hentry, o, howner, hclaim⟩

theorem ownerClaims_eq_nil (h : ¬index.IsOwner r name) : index.ownerClaims r name = [] := by
  refine List.eq_nil_iff_forall_not_mem.2 fun kind hclaimed => h ?_
  obtain ⟨child, o, hmanaged, hname, _⟩ := mem_ownerClaims_iff_isManagedBy.1 hclaimed
  exact ⟨child, o, hmanaged, hname⟩

theorem isChild_of_mem_replacedNames (h : name ∈ index.replacedNames r) : index.IsChild r name := by
  obtain ⟨kind, hentry, o, howner, _⟩ := mem_replacedNames.1 h
  exact ⟨o, isManagedBy_iff.2 ⟨kind, hentry, howner⟩⟩

/-- A child is dropped as soon as one of its owners has not left it behind. -/
theorem mem_replacedNames_of_not_isOutlasting (hchild : index.IsChild r name)
    (hstays : ¬index.IsOutlasting r name) : name ∈ index.replacedNames r := by
  obtain ⟨o, hmanaged⟩ := hchild
  obtain ⟨kind, hentry, howner⟩ := isManagedBy_iff.1 hmanaged
  refine mem_replacedNames.2 ⟨kind, hentry, ?_⟩
  by_contra hgives
  have hleft : ∀ o' ∈ ownersOf r name kind, isLeftBehind r kind o' = true := by
    intro o' howner'
    by_contra hnot
    exact hgives ⟨o', howner', by simpa using hnot⟩
  obtain rfl : kind = .controller .job := (isLeftBehind_eq_true.1 (hleft o howner)).1
  refine hstays ⟨hentry, fun o' hmanaged' => ?_⟩
  obtain ⟨kind', hentry', howner'⟩ := isManagedBy_iff.1 hmanaged'
  cases Option.some.inj (hentry.symm.trans hentry')
  exact (isLeftBehind_eq_true.1 (hleft o' howner')).2

/-- Whatever stayed under a name or is claimed for it by an owner is no stronger than what comes to
stand there. -/
theorem exists_find?_replaceChildren
    (h : (index.find? name = some kind ∧ name ∉ index.replacedNames r) ∨
      kind ∈ index.ownerClaims r name) :
    ∃ kind', (index.replaceChildren r).find? name = some kind' ∧ kind.RanksAtMost kind' := by
  have hheads := Kind.heads_afterClaims
    (if name ∈ index.replacedNames r then none else index.find? name) (index.ownerClaims r name)
  rw [← find?_replaceChildren] at hheads
  have hclaimed : (if name ∈ index.replacedNames r then none else index.find? name) = some kind ∨
      kind ∈ index.ownerClaims r name := by
    rcases h with ⟨hentry, hstays⟩ | howner
    · exact .inl ((if_neg hstays).trans hentry)
    · exact .inr howner
  obtain ⟨kind', hfound, hle⟩ := hheads.exists_le hclaimed
  exact ⟨kind', hfound, Kind.ranksAtMost_iff.2 hle⟩

theorem find?_replaceChildren_of_not_isOwner (h : ¬index.IsOwner r name) :
    (index.replaceChildren r).find? name =
      if name ∈ index.replacedNames r then none else index.find? name := by
  rw [find?_replaceChildren, ownerClaims_eq_nil h, Kind.afterClaims_nil]

/-- Replacing children loses nothing and touches nothing else: what is no child stays and is only
ever raised by owners, owners come in for every child, a child goes unless it has outlasted its
owners or is an owner itself, and nothing comes in but owners. -/
theorem replaceChildren_handsOver (index : Index) (r : Resources) :
    index.HandsOver r (index.replaceChildren r) where
  keeps name kind hentry hnot := by
    have hstays : name ∉ index.replacedNames r := fun h => hnot (isChild_of_mem_replacedNames h)
    exact exists_find?_replaceChildren (.inl ⟨hentry, hstays⟩)
  spares name hnot hfree := by
    have hstays : name ∉ index.replacedNames r := fun h => hnot (isChild_of_mem_replacedNames h)
    rw [find?_replaceChildren_of_not_isOwner hfree, if_neg hstays]
  raises child o hmanaged :=
    exists_find?_replaceChildren
      (.inr (mem_ownerClaims_iff_isManagedBy.2 ⟨child, o, hmanaged, rfl, rfl⟩))
  drops name hchild hfree hstays := by
    have hgone := mem_replacedNames_of_not_isOutlasting hchild hstays
    rw [find?_replaceChildren_of_not_isOwner hfree, if_pos hgone]
  adds name hsome := by
    obtain ⟨kind, hfound⟩ := Option.isSome_iff_exists.1 hsome
    rcases held_or_claimed_of_find?_replaceChildren hfound with ⟨hheld, _⟩ | hclaimed
    · exact .inl (Option.isSome_of_eq_some hheld)
    · obtain ⟨child, o, hmanaged, hname, _⟩ := mem_ownerClaims_iff_isManagedBy.1 hclaimed
      exact .inr ⟨child, o, hmanaged, hname⟩

end WorkloadMap.Index
