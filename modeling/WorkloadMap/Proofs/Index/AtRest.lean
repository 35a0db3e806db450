import WorkloadMap.Proofs.Index.Replacement
import WorkloadMap.Proofs.NameMap

/-!
Replacing the children again. An index is at rest if no child in it would give way and every owner
of a child has been heard: its name stands for a kind that ranks as high as the claim. Main
statement: where ownership is one level deep, whatever index the replacement starts from, it comes
to rest at once.
-/
namespace WorkloadMap

namespace Kind

variable {held kind : Kind} {kinds : List Kind}

theorem afterClaim_eq_held (h : kind.RanksAtMost held) : afterClaim (some held) kind = held :=
  if_pos (ranksAtMost_iff.1 h)

/-- Claims that rank no higher leave a name as it is, ties included. -/
theorem afterClaims_eq_held (h : ∀ kind ∈ kinds, kind.RanksAtMost held) :
    afterClaims (some held) kinds = some held :=
  afterClaims_some_iff.2 ⟨[], kinds, rfl, by simp, h⟩

end Kind

namespace Index

variable {index : Index} {r : Resources} {name child : String} {kind held : Kind}
  {k : ControllerKind} {o : OwnerReference}

structure AtRest (index : Index) (r : Resources) : Prop where
  stays : ∀ name kind, index.find? name = some kind → ¬GivesWay r name kind
  heard : ∀ child o, index.IsManagedBy r child o →
    ∃ held, index.find? o.name = some held ∧ (Kind.ofName o.kind).RanksAtMost held

theorem claim_eq_self (hheld : index.find? name = some held) (hle : kind.RanksAtMost held) :
    index.claim name kind = index := by
  refine NameMap.ext_find? fun other => ?_
  rw [find?_claim]
  split
  next hother => rw [hother, hheld, Kind.afterClaim_eq_held hle]
  next => rfl

theorem AtRest.notMem_replacedNames (h : index.AtRest r) : name ∉ index.replacedNames r := by
  intro hgone
  obtain ⟨kind, hentry, hgives⟩ := mem_replacedNames.1 hgone
  exact h.stays name kind hentry hgives

theorem AtRest.exists_held (h : index.AtRest r) (hclaimed : kind ∈ index.ownerClaims r name) :
    ∃ held, index.find? name = some held ∧ kind.RanksAtMost held := by
  obtain ⟨child, o, hmanaged, rfl, rfl⟩ := mem_ownerClaims_iff_isManagedBy.1 hclaimed
  exact h.heard child o hmanaged

theorem AtRest.replaceChildren_eq (h : index.AtRest r) : index.replaceChildren r = index := by
  refine NameMap.ext_find? fun name => ?_
  rw [find?_replaceChildren, if_neg h.notMem_replacedNames]
  cases hentry : index.find? name with
  | none =>
    have hsilent : index.ownerClaims r name = [] := by
      refine List.eq_nil_iff_forall_not_mem.2 fun kind hclaimed => ?_
      obtain ⟨held, hheld, _⟩ := h.exists_held hclaimed
      simp [hentry] at hheld
    rw [hsilent, Kind.afterClaims_nil]
  | some held =>
    refine Kind.afterClaims_eq_held fun kind hclaimed => ?_
    obtain ⟨held', hheld', hle⟩ := h.exists_held hclaimed
    cases Option.some.inj (hentry.symm.trans hheld')
    exact hle

/-- What owners claim is never a child, so a child that is left was there before, and it stayed. -/
theorem stayed_of_find?_replaceChildren (hlevel : r.OneLevel) (hk : k ∈ childKinds)
    (h : (index.replaceChildren r).find? name = some (.controller k)) :
    index.find? name = some (.controller k) ∧ ¬GivesWay r name (.controller k) :=
  (held_or_claimed_of_find?_replaceChildren h).resolve_right
    (child_notMem_ownerClaims hlevel hk index name)

theorem IsManagedBy.of_replaceChildren (hlevel : r.OneLevel)
    (h : (index.replaceChildren r).IsManagedBy r child o) : index.IsManagedBy r child o := by
  obtain ⟨k, hk, hentry, hmanaged⟩ := h
  have hstayed := stayed_of_find?_replaceChildren hlevel (mem_childKinds.2 hk) hentry
  exact ⟨k, hk, hstayed.1, hmanaged⟩

theorem IsManagedBy.heard_replaceChildren (h : index.IsManagedBy r child o) :
    ∃ held, (index.replaceChildren r).find? o.name = some held ∧
      (Kind.ofName o.kind).RanksAtMost held :=
  exists_find?_replaceChildren
    (.inr (mem_ownerClaims_iff_isManagedBy.2 ⟨child, o, h, rfl, rfl⟩))

theorem atRest_replaceChildren (hlevel : r.OneLevel) (index : Index) :
    (index.replaceChildren r).AtRest r where
  stays name kind hentry hgives := by
    have ⟨_, howner, _⟩ := hgives
    obtain ⟨k, hk, rfl, _⟩ := mem_ownersOf.1 howner
    exact (stayed_of_find?_replaceChildren hlevel hk hentry).2 hgives
  heard _ _ hmanaged := (hmanaged.of_replaceChildren hlevel).heard_replaceChildren

/-- Where ownership is one level deep, the children are replaced once and for all: no child is left
that would give way, a second replacement changes nothing, and neither does a second claim by any
owner, be it the CronJob that a Job has outlived. -/
theorem replaceChildren_settles (hlevel : r.OneLevel) (index : Index) :
    (index.replaceChildren r).AtRest r ∧
      (index.replaceChildren r).replaceChildren r = index.replaceChildren r ∧
      ∀ child o, index.IsManagedBy r child o →
        (index.replaceChildren r).claim o.name (Kind.ofName o.kind) = index.replaceChildren r := by
  have hrest := atRest_replaceChildren hlevel index
  refine ⟨hrest, hrest.replaceChildren_eq, fun child o hmanaged => ?_⟩
  obtain ⟨held, hheld, hle⟩ := hmanaged.heard_replaceChildren
  exact claim_eq_self hheld hle

/-- A Job that has outlived the CronJob `nightly`, a name that a custom kind holds, and a ReplicaSet
that gives its name to a Deployment. -/
def outlived : Resources where
  controllers
    | .replicaSet =>
      [{ metadata := { name := some "web", owners := [⟨"Deployment", "web", true⟩] } }]
    | .job =>
      [{ metadata := { name := some "nightly-1", owners := [⟨"CronJob", "nightly", true⟩] } }]
    | _ => []

def outlivedHeld : Index :=
  .ofList [("nightly", Kind.ofName "Rollout"), ("nightly-1", .controller .job),
    ("web", .controller .replicaSet)]

theorem outlived_settles :
    outlived.OneLevel ∧
      outlivedHeld.IsManagedBy outlived "nightly-1" ⟨"CronJob", "nightly", true⟩ ∧
      outlivedHeld.replaceChildren outlived ≠ outlivedHeld ∧
      (outlivedHeld.replaceChildren outlived).replaceChildren outlived =
        outlivedHeld.replaceChildren outlived ∧
      (outlivedHeld.replaceChildren outlived).claim "nightly" (.controller .cronJob) =
        outlivedHeld.replaceChildren outlived := by
  have hlevel : outlived.OneLevel := by decide +kernel
  have hmanaged : outlivedHeld.IsManagedBy outlived "nightly-1" ⟨"CronJob", "nightly", true⟩ :=
    ⟨.job, by decide, by decide +kernel, _, rfl, by decide +kernel⟩
  obtain ⟨_, hagain, hheard⟩ := replaceChildren_settles hlevel outlivedHeld
  exact ⟨hlevel, hmanaged, by decide +kernel, hagain, hheard _ _ hmanaged⟩

end Index

end WorkloadMap
