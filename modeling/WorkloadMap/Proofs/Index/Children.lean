import WorkloadMap.Proofs.Index.Entry
import WorkloadMap.Proofs.Resources.Named

/-!
Children and the owners that are reported in their place. Main statement: in the index of a
namespace whose ownership is one level deep, a child has no owner that could be reported instead.
-/
namespace WorkloadMap.Index

variable {r : Resources} {selector : Option String} {k : ControllerKind} {c : Controller}

theorem isLeftBehind_eq_true {kind : Kind} {owner : OwnerReference} :
    isLeftBehind r kind owner = true ↔
      kind = .controller .job ∧ Kind.ofName owner.kind = .controller .cronJob ∧
        r.contains (.controller .cronJob) owner.name = false := by
  simp [isLeftBehind, Resources.contains, and_assoc]

/-- Among objects told apart by their names, an entry has the owners of the one child it names. -/
theorem mem_ownersOf_iff (hnamed : r.Named) {name : String} {kind : Kind} {o : OwnerReference} :
    o ∈ ownersOf r name kind ↔ ∃ k ∈ childKinds, ∃ c ∈ r.controllers k,
      kind = .controller k ∧ Object.anyName c = name ∧ o ∈ c.metadata.controllers := by
  rw [mem_ownersOf]
  constructor
  · rintro ⟨k, hk, hkind, c, hfound, ho⟩
    obtain ⟨hc, hname⟩ := hnamed.controller?_eq_some_iff.1 hfound
    exact ⟨k, hk, c, hc, hkind, hname, ho⟩
  · rintro ⟨k, hk, c, hc, hkind, hname, ho⟩
    exact ⟨k, hk, hkind, c, hnamed.controller?_eq_some_iff.2 ⟨hc, hname⟩, ho⟩

theorem mem_ownersOf_anyName (hnamed : r.Named) (hc : c ∈ r.controllers k) {o : OwnerReference} :
    o ∈ ownersOf r (Object.anyName c) (.controller k) ↔
      k ∈ childKinds ∧ o ∈ c.metadata.controllers := by
  have hfound := hnamed.controller?_eq_some_iff.2 ⟨hc, rfl⟩
  by_cases hk : k ∈ childKinds <;> simp [ownersOf, hk, hfound]

theorem givesWay_anyName_iff (hnamed : r.Named) (hc : c ∈ r.controllers k) :
    GivesWay r (Object.anyName c) (.controller k) ↔
      k ∈ childKinds ∧ ∃ o ∈ c.metadata.controllers, isLeftBehind r (.controller k) o = false := by
  simp only [GivesWay, mem_ownersOf_anyName hnamed hc, and_assoc, exists_and_left]

/-- What is claimed for a child's owner is claimed by a reference of the child. -/
theorem exists_manager_of_mem_ownerClaims (hnamed : r.Named) {index : Index} {name : String}
    {kind : Kind} (h : kind ∈ index.ownerClaims r name) :
    ∃ o ∈ r.managers, o.name = name ∧ Kind.ofName o.kind = kind := by
  obtain ⟨_, _, _, o, howner, hclaim⟩ := mem_ownerClaims.1 h
  obtain ⟨k, hk, c, hc, _, _, ho⟩ := (mem_ownersOf_iff hnamed).1 howner
  exact ⟨o, Resources.mem_managers.2 (.inr ⟨k, hk, c, hc, ho⟩), hclaim⟩

theorem not_givesWay {name : String} {kind : Kind}
    (hkind : ∀ k ∈ childKinds, kind ≠ .controller k) : ¬GivesWay r name kind := by
  rintro ⟨o, howner, _⟩
  obtain ⟨k, hk, rfl, _⟩ := mem_ownersOf.1 howner
  exact hkind k hk rfl

/-- An owner claims no name for a child where ownership is one level deep. -/
theorem child_notMem_ownerClaims (hlevel : r.OneLevel) (hk : k ∈ childKinds) (index : Index)
    (name : String) : .controller k ∉ index.ownerClaims r name := by
  intro hclaimed
  obtain ⟨child, childKind, _, o, howner, _, hkind⟩ := mem_ownerClaims.1 hclaimed
  obtain ⟨k', hk', _, c', hfound, ho⟩ := mem_ownersOf.1 howner
  exact hlevel k' hk' c' (List.mem_of_find?_eq_some hfound) o ho k hk hkind

/-- A child that does not give way has no owners but CronJobs that are gone, and is then a Job. -/
theorem unmanaged_of_not_givesWay (hk : k ∈ childKinds) {name : String}
    (hc : r.controller? k name = some c) (h : ¬GivesWay r name (.controller k)) :
    c.metadata.controllers = [] ∨
      k = .job ∧ ∀ o ∈ c.metadata.controllers, Kind.ofName o.kind = .controller .cronJob ∧
        r.contains (.controller .cronJob) o.name = false := by
  have hleft : ∀ o ∈ c.metadata.controllers, isLeftBehind r (.controller k) o = true := by
    intro o ho
    by_contra hstays
    exact h ⟨o, mem_ownersOf.2 ⟨k, hk, rfl, c, hc, ho⟩, by simpa using hstays⟩
  cases howners : c.metadata.controllers with
  | nil => exact .inl rfl
  | cons o owners =>
    rw [howners] at hleft
    refine .inr ⟨?_, fun o' ho' => (isLeftBehind_eq_true.1 (hleft o' ho')).2⟩
    have hjob := (isLeftBehind_eq_true.1 (hleft o List.mem_cons_self)).1
    exact Kind.controller.inj hjob

theorem unmanaged_of_mem_orphans (hnamed : r.Named) (hk : k ∈ childKinds)
    (hc : c ∈ r.controllers k)
    (h : (Object.anyName c, .controller k) ∈ orphans r selector) : c.metadata.controllers = [] := by
  obtain ⟨k', horphan, hkind, c', hc', hname, halone, _⟩ := mem_orphans.1 h
  cases Kind.controller.inj hkind
  cases (hnamed.controllers k).eq_of_anyName_eq hc' hc hname
  have howned : c.metadata.isOwned = false := by
    rcases mem_childKinds.1 hk with rfl | rfl | rfl
    · simpa [standsAlone] using halone
    · simpa [standsAlone] using halone
    · simp [orphanKinds] at horphan
  exact List.eq_nil_iff_forall_not_mem.2 fun o ho => by
    simp [Meta.isOwned_of_mem_controllers ho] at howned

/-- Whatever other kinds share its name, a child in the index has no owner but CronJobs that are
gone, and is then a Job. -/
theorem unmanaged_of_find?_resolve (hnamed : r.Named) (hlevel : r.OneLevel) (hk : k ∈ childKinds)
    (hc : c ∈ r.controllers k) {name : String} (hname : c.metadata.name = some name)
    (hentry : (r.resolve selector).find? name = some (.controller k)) :
    c.metadata.controllers = [] ∨
      k = .job ∧ ∀ o ∈ c.metadata.controllers, Kind.ofName o.kind = .controller .cronJob ∧
        r.contains (.controller .cronJob) o.name = false := by
  obtain rfl : Object.anyName c = name :=
    Option.some.inj (((hnamed.controllers k).name_eq hc).symm.trans hname)
  -- The passes from the last to the first: an orphan, what an owner claims, what a pod left.
  rcases held_or_orphan_of_find?_completeOrphans hentry with hheld | horphan
  · rcases held_or_claimed_of_find?_replaceChildren hheld with ⟨_, hstays⟩ | hclaimed
    · exact unmanaged_of_not_givesWay hk (hnamed.controller?_eq_some_iff.2 ⟨hc, rfl⟩) hstays
    · exact absurd hclaimed (child_notMem_ownerClaims hlevel hk _ _)
  · exact .inl (unmanaged_of_mem_orphans hnamed hk hc horphan)

/-- A Deployment and its ReplicaSet share a name, and so do a Job, the CronJob that it has outlived
and a StatefulSet. -/
def namesakes : Resources where
  pods := [
    { metadata := { name := some "web-a", owners := [⟨"ReplicaSet", "web", true⟩] } },
    { metadata := { name := some "backup-a", owners := [⟨"Job", "backup", true⟩] } }]
  controllers
    | .deployment => [{ metadata := { name := some "web" } }]
    | .replicaSet =>
      [{ metadata := { name := some "web", owners := [⟨"Deployment", "web", true⟩] } }]
    | .statefulSet => [{ metadata := { name := some "backup" } }]
    | .job => [{ metadata := { name := some "backup", owners := [⟨"CronJob", "backup", true⟩] } }]
    | _ => []

theorem unmanaged_backup_namesakes :
    namesakes.Named ∧ namesakes.OneLevel ∧
      (namesakes.resolve none).find? "backup" = some (.controller .job) ∧
      ∃ c ∈ namesakes.controllers .job, c.metadata.name = some "backup" ∧
        (c.metadata.controllers = [] ∨
          ControllerKind.job = .job ∧ ∀ o ∈ c.metadata.controllers,
            Kind.ofName o.kind = .controller .cronJob ∧
              namesakes.contains (.controller .cronJob) o.name = false) := by
  have hnamed : namesakes.Named := by decide +kernel
  have hlevel : namesakes.OneLevel := by decide +kernel
  have hentry : (namesakes.resolve none).find? "backup" = some (.controller .job) := by
    decide +kernel
  refine ⟨hnamed, hlevel, hentry, _, List.mem_singleton_self _, rfl, ?_⟩
  exact unmanaged_of_find?_resolve hnamed hlevel (by decide) (List.mem_singleton_self _) rfl hentry

end WorkloadMap.Index
