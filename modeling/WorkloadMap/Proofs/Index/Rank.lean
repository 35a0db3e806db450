import WorkloadMap.Proofs.Index.Children
import WorkloadMap.Proofs.Workload.Listing

/-!
What rank settles. Of the claims to one name that owners make the first of the strongest wins, so
that where no two are equally strong their order does not count; but a pod that nothing owns only
takes a name that is free, and so may lose to a kind that has no rank. Main statements: what comes
of a sequence of claims, and that where every pod that may lose so meets a ranked claim, what an
index holds once the children are replaced is the strongest of all claims.
-/
namespace WorkloadMap

namespace Kind

variable {held first kind kind' : Kind} {kinds : List Kind}

theorem isRanked_iff : kind.isRanked = true ↔ 0 < kind.strength := by
  cases kind with
  | controller k => cases k <;> decide
  | pod => decide
  | custom n hn => simp [isRanked, strength, rank]

theorem not_isRanked_iff : kind.isRanked = false ↔ kind.strength = 0 := by
  rw [← Bool.not_eq_true, isRanked_iff]
  omega

theorem neg_one_le_rank {n : Int} (h : kind.rank = some n) : -1 ≤ n := by
  cases kind with
  | controller k => cases k <;> simp_all [rank] <;> omega
  | pod => simp_all [rank]
  | custom m hm => simp [rank] at h

theorem rank_eq_of_strength_eq (h : kind.strength = kind'.strength) : kind.rank = kind'.rank := by
  unfold strength at h
  cases hrank : kind.rank with
  | none =>
    cases hrank' : kind'.rank with
    | none => rfl
    | some m =>
      have hm := neg_one_le_rank hrank'
      simp only [hrank, hrank'] at h
      omega
  | some n =>
    have hn := neg_one_le_rank hrank
    cases hrank' : kind'.rank with
    | none =>
      simp only [hrank, hrank'] at h
      omega
    | some m =>
      have hm := neg_one_le_rank hrank'
      simp only [hrank, hrank'] at h
      exact congrArg some (by omega)

/-- Of no higher rank, where no rank is below every rank. -/
def RanksAtMost (kind kind' : Kind) : Prop :=
  ∀ n, kind.rank = some n → ∃ m, kind'.rank = some m ∧ n ≤ m

theorem ranksAtMost_iff : kind.RanksAtMost kind' ↔ kind.strength ≤ kind'.strength := by
  unfold RanksAtMost strength
  cases hrank : kind.rank with
  | none => simp
  | some n =>
    have hn := neg_one_le_rank hrank
    cases hrank' : kind'.rank with
    | none =>
      simp only [reduceCtorEq, false_and, exists_false]
      exact iff_of_false (fun h => h n rfl) (by omega)
    | some m =>
      have hm := neg_one_le_rank hrank'
      simp only [Option.some.injEq, forall_eq', exists_eq_left']
      omega

theorem strength_pod : pod.strength = 1 := rfl

theorem ne_pod_of_strength_ne_one (h : kind.strength ≠ 1) : kind ≠ .pod := by
  rintro rfl
  exact h strength_pod

theorem one_lt_strength_of_child {k : ControllerKind} (hk : k ∈ Index.childKinds) :
    1 < (controller k).strength := by
  revert hk
  cases k <;> decide

/-- The first of the highest rank: what comes before ranks below it, and what comes after no higher.
-/
def IsFirstStrongest (kinds : List Kind) (kind : Kind) : Prop :=
  ∃ before after, kinds = before ++ kind :: after ∧
    (∀ earlier ∈ before, ¬kind.RanksAtMost earlier) ∧ ∀ later ∈ after, later.RanksAtMost kind

theorem not_isFirstStrongest_nil : ¬IsFirstStrongest [] kind := by
  rintro ⟨before, after, heq, _⟩
  simp at heq

theorem isFirstStrongest_cons_iff : IsFirstStrongest (first :: kinds) kind ↔
    (kind = first ∧ ∀ later ∈ kinds, later.RanksAtMost first) ∨
      (¬kind.RanksAtMost first ∧ IsFirstStrongest kinds kind) := by
  constructor
  · rintro ⟨before, after, heq, hbefore, hafter⟩
    cases before with
    | nil =>
      obtain ⟨rfl, rfl⟩ := List.cons.inj heq
      exact .inl ⟨rfl, hafter⟩
    | cons first' before =>
      obtain ⟨rfl, rfl⟩ := List.cons.inj heq
      refine .inr ⟨hbefore first List.mem_cons_self, before, after, rfl, ?_, hafter⟩
      exact fun earlier hearlier => hbefore earlier (List.mem_cons_of_mem first hearlier)
  · rintro (⟨rfl, hafter⟩ | ⟨hfirst, before, after, rfl, hbefore, hafter⟩)
    · exact ⟨[], kinds, rfl, by simp, hafter⟩
    · refine ⟨first :: before, after, rfl, fun earlier hearlier => ?_, hafter⟩
      rcases List.mem_cons.1 hearlier with rfl | hearlier
      · exact hfirst
      · exact hbefore earlier hearlier

/-- Two claims in front may be settled before the rest is heard. -/
theorem isFirstStrongest_stronger_iff :
    IsFirstStrongest (held.stronger first :: kinds) kind ↔
      IsFirstStrongest (held :: first :: kinds) kind := by
  simp only [isFirstStrongest_cons_iff, List.forall_mem_cons, ranksAtMost_iff]
  unfold stronger
  -- Whichever of the two yields, the other one rules it out.
  split
  next hle => grind
  next hlt => grind

theorem afterClaims_some_iff :
    afterClaims (some held) kinds = some kind ↔ IsFirstStrongest (held :: kinds) kind := by
  -- Each claim is settled with what is held, which therefore stays open in the induction.
  induction kinds generalizing held with
  | nil => simp [isFirstStrongest_cons_iff, not_isFirstStrongest_nil, eq_comm]
  | cons first kinds ih =>
    rw [afterClaims_cons, ih, ← isFirstStrongest_stronger_iff]
    rfl

theorem afterClaims_none_iff :
    afterClaims none kinds = some kind ↔ IsFirstStrongest kinds kind := by
  cases kinds with
  | nil => simp [not_isFirstStrongest_nil]
  | cons first kinds => exact afterClaims_some_iff

/-- What stands for a name of all that is claimed for it: a kind that is as strong as any. -/
def Heads (claimed : Kind → Prop) : Option Kind → Prop
  | none => ∀ kind, ¬claimed kind
  | some head => claimed head ∧ ∀ kind, claimed kind → kind.strength ≤ head.strength

theorem Heads.exists_le {claimed : Kind → Prop} {head : Option Kind} (h : Heads claimed head)
    (hkind : claimed kind) : ∃ best, head = some best ∧ kind.strength ≤ best.strength := by
  cases head with
  | none => exact absurd hkind (h kind)
  | some best => exact ⟨best, rfl, h.2 kind hkind⟩

/-- Where no two claims are equally strong, at most one of them comes out. -/
theorem Heads.eq {claimed : Kind → Prop} {a b : Option Kind}
    (hapart : ∀ kind kind', claimed kind → claimed kind' → kind.strength = kind'.strength →
      kind = kind') (ha : Heads claimed a) (hb : Heads claimed b) : a = b := by
  cases a with
  | none =>
    cases b with
    | none => rfl
    | some b => exact absurd hb.1 (ha b)
  | some a =>
    cases b with
    | none => exact absurd ha.1 (hb a)
    | some b => exact congrArg some (hapart a b ha.1 hb.1 (le_antisymm (hb.2 a ha.1) (ha.2 b hb.1)))

theorem IsFirstStrongest.heads (h : IsFirstStrongest kinds kind) :
    Heads (fun other => other ∈ kinds) (some kind) := by
  obtain ⟨before, after, rfl, hbefore, hafter⟩ := h
  refine ⟨by simp, fun other hother => ?_⟩
  rcases List.mem_append.1 hother with hearlier | hother
  · have hbelow := hbefore other hearlier
    rw [ranksAtMost_iff] at hbelow
    omega
  · rcases List.mem_cons.1 hother with rfl | hlater
    · exact le_rfl
    · exact ranksAtMost_iff.1 (hafter other hlater)

theorem heads_afterClaims (held : Option Kind) (kinds : List Kind) :
    Heads (fun kind => held = some kind ∨ kind ∈ kinds) (afterClaims held kinds) := by
  cases hresult : afterClaims held kinds with
  | none =>
    obtain ⟨rfl, rfl⟩ := afterClaims_eq_none.1 hresult
    simp [Heads]
  | some head =>
    cases held with
    | none => simpa using (afterClaims_none_iff.1 hresult).heads
    | some held => simpa [eq_comm] using (afterClaims_some_iff.1 hresult).heads

end Kind

namespace Index

variable {r : Resources} {index : Index} {pod : Pod} {pods : List Pod} {name : String}
  {kind : Kind} {n : Nat}

def Reaches (index : Index) (name : String) (n : Nat) : Prop :=
  ∃ kind, index.find? name = some kind ∧ n ≤ kind.strength

theorem reaches_addPod (h : index.Reaches name n) (pod : Pod) :
    (index.addPod pod).Reaches name n := by
  obtain ⟨held, hheld, hn⟩ := h
  unfold Reaches
  rw [find?_addPod]
  split
  · have hheads :=
      Kind.heads_afterClaims (index.find? name) (claimsOn name pod.metadata.controllers)
    obtain ⟨best, hbest, hle⟩ := hheads.exists_le (.inl hheld)
    exact ⟨best, hbest, hn.trans hle⟩
  · split
    · exact ⟨held, by rw [hheld]; rfl, hn⟩
    · exact ⟨held, hheld, hn⟩

theorem reaches_addPod_of_owner (index : Index) {o : OwnerReference}
    (ho : o ∈ pod.metadata.controllers) :
    (index.addPod pod).Reaches o.name (Kind.ofName o.kind).strength := by
  have hclaim : Kind.ofName o.kind ∈ claimsOn o.name pod.metadata.controllers :=
    mem_claimsOn.2 ⟨o, ho, rfl, rfl⟩
  unfold Reaches
  rw [find?_addPod, if_pos (Meta.isOwned_of_mem_controllers ho)]
  exact (Kind.heads_afterClaims _ _).exists_le (.inr hclaim)

theorem reaches_foldl_addPod (h : index.Reaches name n) (pods : List Pod) :
    (pods.foldl addPod index).Reaches name n := by
  induction pods generalizing index with
  | nil => exact h
  | cons pod pods ih => exact ih (reaches_addPod h pod)

private theorem reaches_foldl_of_owner {o : OwnerReference} (hpod : pod ∈ pods)
    (ho : o ∈ pod.metadata.controllers) :
    (pods.foldl addPod index).Reaches o.name (Kind.ofName o.kind).strength := by
  induction pods generalizing index with
  | nil => simp at hpod
  | cons first pods ih =>
    rcases List.mem_cons.1 hpod with rfl | hrest
    · exact reaches_foldl_addPod (reaches_addPod_of_owner index ho) pods
    · exact ih hrest

theorem reaches_ofPods (h : r.ManagesPod name kind) :
    (ofPods r.pods).Reaches name kind.strength := by
  obtain ⟨pod, hpod, o, ho, rfl, rfl⟩ := h
  exact reaches_foldl_of_owner hpod ho

end Index

namespace Resources

/-- Where a kind without a rank manages pods under the name of a pod that nothing owns, a ranked
kind does so too, or is claimed for the name as the owner of a child. -/
def Settled (r : Resources) : Prop :=
  ∀ pod ∈ r.pods, pod.metadata.isOwned = false →
    ∀ kind, kind.isRanked = false → r.ManagesPod (Object.anyName pod) kind →
      ∃ ranked : Kind, ranked.isRanked = true ∧ (r.ManagesPod (Object.anyName pod) ranked ∨
        ranked ∈ (Index.ofPods r.pods).ownerClaims r (Object.anyName pod))

end Resources

namespace Index

variable {r : Resources} {name : String} {kind : Kind}

/-- The kinds that a name may come to stand for once the children are replaced. -/
def Contends (r : Resources) (name : String) (kind : Kind) : Prop :=
  ((∃ pod ∈ r.pods, pod.Claims name kind) ∧ name ∉ (ofPods r.pods).replacedNames r) ∨
    kind ∈ (ofPods r.pods).ownerClaims r name

theorem managesPod_of_find?_ofPods (hentry : (ofPods r.pods).find? name = some kind)
    (hne : kind ≠ .pod) : r.ManagesPod name kind :=
  (managesPod_iff hne).2 (claims_of_find?_ofPods hentry)

/-- What pods left under a name is as strong as any claim of theirs, unless it is of no rank and
stands in the way of a pod that nothing owns. -/
theorem strength_le_of_claims {held : Kind} (hheld : (ofPods r.pods).find? name = some held)
    (hclaims : ∃ pod ∈ r.pods, pod.Claims name kind) :
    kind.strength ≤ held.strength ∨
      held.strength = 0 ∧ r.ManagesPod name held ∧
        ∃ pod ∈ r.pods, pod.metadata.isOwned = false ∧ Object.anyName pod = name ∧ kind = .pod := by
  obtain ⟨pod, hpod, ⟨o, ho, hname, hkind⟩ | ⟨hfree, hname, rfl⟩⟩ := hclaims
  · obtain ⟨held', hheld', hle⟩ := reaches_ofPods ⟨pod, hpod, o, ho, hname, hkind⟩
    cases Option.some.inj (hheld.symm.trans hheld')
    exact .inl hle
  · by_cases hranked : 0 < held.strength
    · exact .inl hranked
    · have hzero : held.strength = 0 := by omega
      have hmanages : r.ManagesPod name held :=
        managesPod_of_find?_ofPods hheld (Kind.ne_pod_of_strength_ne_one (by omega))
      exact .inr ⟨hzero, hmanages, pod, hpod, hfree, hname, rfl⟩

/-- Whatever the order of the objects, the strongest of all claims to a name comes out. -/
theorem heads_replaceChildren (hsettled : r.Settled) (name : String) :
    Kind.Heads (Contends r name) (((ofPods r.pods).replaceChildren r).find? name) := by
  have hheads := Kind.heads_afterClaims
    (if name ∈ (ofPods r.pods).replacedNames r then none else (ofPods r.pods).find? name)
    ((ofPods r.pods).ownerClaims r name)
  rw [← find?_replaceChildren] at hheads
  cases hentry : ((ofPods r.pods).replaceChildren r).find? name with
  | none =>
    rw [hentry] at hheads
    rintro kind (⟨⟨pod, hpod, hclaim⟩, hstays⟩ | howner)
    · obtain ⟨held, hheld⟩ := Option.isSome_iff_exists.1 (isSome_find?_ofPods hpod hclaim)
      exact hheads held (.inl ((if_neg hstays).trans hheld))
    · exact hheads kind (.inr howner)
  | some head =>
    rw [hentry] at hheads
    obtain ⟨hclaimed, hbest⟩ := hheads
    constructor
    · rcases hclaimed with hheld | howner
      · split at hheld
        next => cases hheld
        next hstays => exact .inl ⟨claims_of_find?_ofPods hheld, hstays⟩
      · exact .inr howner
    · rintro kind (⟨hclaims, hstays⟩ | howner)
      · obtain ⟨pod, hpod, hclaim⟩ := hclaims
        obtain ⟨held, hheld⟩ := Option.isSome_iff_exists.1 (isSome_find?_ofPods hpod hclaim)
        have hle := hbest held (.inl ((if_neg hstays).trans hheld))
        rcases strength_le_of_claims hheld ⟨pod, hpod, hclaim⟩ with
          hstrong | ⟨hzero, hmanages, free, hfree, hunowned, rfl, rfl⟩
        · exact hstrong.trans hle
        · -- A pod that nothing owns found its name taken, but a ranked claim makes up for it.
          have hunranked := Kind.not_isRanked_iff.2 hzero
          obtain ⟨ranked, hranked, hmanaged | howner⟩ :=
            hsettled free hfree hunowned held hunranked hmanages
          · obtain ⟨held', hheld', hreached⟩ := reaches_ofPods hmanaged
            cases Option.some.inj (hheld.symm.trans hheld')
            have := Kind.isRanked_iff.1 hranked
            omega
          · exact (Kind.isRanked_iff.1 hranked).trans_le (hbest ranked (.inr howner))
      · exact hbest kind (.inr howner)

end Index

end WorkloadMap
