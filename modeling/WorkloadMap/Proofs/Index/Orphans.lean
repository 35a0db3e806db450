import WorkloadMap.Proofs.Index.Rank
import WorkloadMap.Proofs.NameMap

/-!
What is reported without pods. A controller is offered for the index under its name if it may stand
alone and the selector text, where that can be read, admits its template. Main statements: what the
orphans add to any index, and exactly when what they add under a name is the highest ranked of all
that is offered there, as it would be had pods claimed the name.
-/
namespace WorkloadMap.Index

variable {index : Index} {r : Resources} {selector : Option String} {name : String}
  {kind : Kind} {k : ControllerKind} {c : Controller}

/-- ReplicaSets and ReplicationControllers stand alone if they have no owners at all. -/
def MayStandAlone (k : ControllerKind) (c : Controller) : Prop :=
  k ∈ ControllerKind.roots ∨
    (k = .replicaSet ∨ k = .replicationController) ∧ c.metadata.owners = []

/-- A selector text asks nothing of a template unless it can be read. -/
def Admits (selector : Option String) (c : Controller) : Prop :=
  ∀ text, selector = some text → ∀ s, Selector.parse text = .ok s → s.selects c.template = true

def Offers (r : Resources) (selector : Option String) (name : String) (k : ControllerKind) : Prop :=
  ∃ c ∈ r.controllers k, Object.anyName c = name ∧ MayStandAlone k c ∧ Admits selector c

theorem mayStandAlone_iff : MayStandAlone k c ↔ k ∈ orphanKinds ∧ standsAlone k c = true := by
  cases k <;>
    simp [MayStandAlone, ControllerKind.roots, orphanKinds, standsAlone, Meta.isOwned]

theorem admits_iff : Admits selector c ↔ templateSelected selector c = true := by
  unfold Admits templateSelected
  cases selector with
  | none => simp
  | some text => cases hread : Selector.parse text <;> simp [hread]

theorem mem_orphans_iff_offers :
    (name, kind) ∈ orphans r selector ↔ ∃ k, kind = .controller k ∧ Offers r selector name k := by
  simp only [mem_orphans, Offers, mayStandAlone_iff, admits_iff]
  constructor
  · rintro ⟨k, hk, hkind, c, hc, hname, halone, hselected⟩
    exact ⟨k, hkind, c, hc, hname, ⟨hk, halone⟩, hselected⟩
  · rintro ⟨k, hkind, c, hc, hname, ⟨hk, halone⟩, hselected⟩
    exact ⟨k, hk, hkind, c, hc, hname, halone, hselected⟩

/-- A text that is missing, empty or at fault. -/
def IsIdle (selector : Option String) : Prop :=
  selector = none ∨ selector = some "" ∨
    ∃ text e, selector = some text ∧ Selector.parse text = .error e

theorem admits_of_isIdle (h : IsIdle selector) (c : Controller) : Admits selector c := by
  rintro text rfl s hread
  obtain h | h | ⟨text', e, h, hfault⟩ := h
  · cases h
  · cases h
    have hempty : Selector.parse "" = .ok (.requirements []) := rfl
    cases Except.ok.inj (hempty.symm.trans hread)
    rfl
  · cases h
    cases hfault.symm.trans hread

theorem Offers.unselected (h : Offers r selector name k) : Offers r none name k := by
  obtain ⟨c, hc, hname, halone, _⟩ := h
  exact ⟨c, hc, hname, halone, admits_of_isIdle (.inl rfl) c⟩

theorem orphans_of_isIdle (h : IsIdle selector) : orphans r selector = orphans r none := by
  have hall : ∀ c, templateSelected selector c = templateSelected none c := fun c => by
    rw [admits_iff.1 (admits_of_isIdle h c), admits_iff.1 (admits_of_isIdle (.inl rfl) c)]
  unfold orphans
  simp only [hall]

/-- What is in an index once the orphans have come in. -/
structure Completes (index : Index) (r : Resources) (selector : Option String) (after : Index) :
    Prop where
  keeps : ∀ name kind, index.find? name = some kind → after.find? name = some kind
  adds : ∀ name, index.find? name = none →
    ((after.find? name).isSome ↔ ∃ k, Offers r selector name k)
  offered : ∀ name kind, index.find? name = none → after.find? name = some kind →
    ∃ k, kind = .controller k ∧ Offers r selector name k

theorem offers_of_added (habsent : index.find? name = none)
    (hadded : (index.completeOrphans r selector).find? name = some kind) :
    ∃ k, kind = .controller k ∧ Offers r selector name k := by
  rcases held_or_orphan_of_find?_completeOrphans hadded with hheld | horphan
  · simp [habsent] at hheld
  · exact mem_orphans_iff_offers.1 horphan

theorem isSome_of_offers (h : Offers r selector name k) :
    ((index.completeOrphans r selector).find? name).isSome :=
  isSome_find?_completeOrphans (.inr ⟨_, mem_orphans_iff_offers.2 ⟨k, rfl, h⟩⟩)

theorem completes_completeOrphans :
    index.Completes r selector (index.completeOrphans r selector) where
  keeps name kind hheld := by rw [find?_completeOrphans, hheld]; rfl
  adds name habsent := by
    constructor
    · intro hsome
      obtain ⟨kind, hadded⟩ := Option.isSome_iff_exists.1 hsome
      obtain ⟨k, _, hoffers⟩ := offers_of_added habsent hadded
      exact ⟨k, hoffers⟩
    · rintro ⟨k, hoffers⟩
      exact isSome_of_offers hoffers
  offered name kind := offers_of_added

theorem completeOrphans_again :
    (index.completeOrphans r selector).completeOrphans r selector =
      index.completeOrphans r selector := by
  refine NameMap.ext_find? fun name => ?_
  rw [find?_completeOrphans (index.completeOrphans r selector), find?_completeOrphans index,
    Option.or_assoc, Option.or_self]

theorem isSome_unselected (h : ((index.completeOrphans r selector).find? name).isSome) :
    ((index.completeOrphans r none).find? name).isSome := by
  obtain ⟨kind, hfound⟩ := Option.isSome_iff_exists.1 h
  rcases held_or_orphan_of_find?_completeOrphans hfound with hheld | horphan
  · exact isSome_find?_completeOrphans (.inl (Option.isSome_of_eq_some hheld))
  · obtain ⟨k, _, hoffers⟩ := mem_orphans_iff_offers.1 horphan
    exact isSome_of_offers hoffers.unselected

/-- The orphans leave alone what an index has, come in under every other name that they are offered
for and under no further one, and come in once. A selector only ever leaves some of them out, and
leaves out none if its text is missing, empty or at fault. -/
theorem completeOrphans_completes (index : Index) (r : Resources) (selector : Option String) :
    index.Completes r selector (index.completeOrphans r selector) ∧
      (index.completeOrphans r selector).completeOrphans r selector =
        index.completeOrphans r selector ∧
      (∀ name ∈ (index.completeOrphans r selector).keys,
        name ∈ (index.completeOrphans r none).keys) ∧
      (IsIdle selector → (∀ c, Admits selector c) ∧
        index.completeOrphans r selector = index.completeOrphans r none) := by
  refine ⟨completes_completeOrphans, completeOrphans_again, fun name hname => ?_, fun hidle => ?_⟩
  · rw [NameMap.mem_keys_iff] at hname ⊢
    exact isSome_unselected hname
  · refine ⟨admits_of_isIdle hidle, ?_⟩
    unfold completeOrphans
    rw [orphans_of_isIdle hidle]

/-- A Deployment, a StatefulSet whose name is taken below, and a ReplicaSet that has an owner which
does not manage it. -/
def storefront : Resources where
  controllers
    | .deployment =>
      [{ metadata := { name := some "reviews" }, template := .ofList [("app", "reviews")] }]
    | .statefulSet =>
      [{ metadata := { name := some "ratings" }, template := .ofList [("app", "ratings")] }]
    | .replicaSet =>
      [{ metadata := { name := some "kept", owners := [⟨"Node", "node-0", false⟩] }
         template := .ofList [("app", "reviews")] }]
    | _ => []

def storefrontHeld : Index := .ofList [("ratings", .pod)]

theorem storefront_completes :
    storefrontHeld.find? "ratings" = some .pod ∧
      Offers storefront (some "app=reviews") "reviews" .deployment ∧ IsIdle (some "app in (") ∧
      (storefrontHeld.completeOrphans storefront (some "app=reviews")).find? "ratings" =
        some .pod ∧
      ((storefrontHeld.completeOrphans storefront (some "app=reviews")).find? "reviews").isSome ∧
      (storefrontHeld.completeOrphans storefront (some "app=reviews")).find? "kept" = none ∧
      storefrontHeld.completeOrphans storefront (some "app in (") =
        storefrontHeld.completeOrphans storefront none := by
  have hheld : storefrontHeld.find? "ratings" = some .pod := by decide +kernel
  have hoffers : Offers storefront (some "app=reviews") "reviews" .deployment :=
    ⟨_, List.mem_singleton_self _, rfl, .inl (by decide), admits_iff.2 (by decide +kernel)⟩
  have hidle : IsIdle (some "app in (") := .inr (.inr ⟨_, .unbalanced "app in (", rfl, rfl⟩)
  obtain ⟨hcompletes, _⟩ := completeOrphans_completes storefrontHeld storefront (some "app=reviews")
  obtain ⟨_, _, _, hunread⟩ := completeOrphans_completes storefrontHeld storefront (some "app in (")
  exact ⟨hheld, hoffers, hidle, hcompletes.keeps _ _ hheld,
    (hcompletes.adds "reviews" (by decide +kernel)).2 ⟨_, hoffers⟩, by decide +kernel,
    (hunread hidle).2⟩

/-! Of several kinds that are offered under one name, the one whose turn comes first is added. -/

/-- The place of a kind in the order in which orphans claim names. -/
def turn (k : ControllerKind) : Nat := orphanKinds.idxOf k

theorem orphanKinds_in_turn : orphanKinds.Pairwise fun k k' => turn k ≤ turn k' := by decide

theorem orphans_in_turn (r : Resources) (selector : Option String) :
    (orphans r selector).Pairwise fun a b =>
      ∃ k k', a.2 = .controller k ∧ b.2 = .controller k' ∧ turn k ≤ turn k' := by
  refine List.pairwise_flatMap.2 ⟨fun k _ => ?_, orphanKinds_in_turn.imp fun {k k'} hturn => ?_⟩
  · exact List.pairwise_map.2 (List.pairwise_of_forall fun _ _ => ⟨k, k, rfl, rfl, le_rfl⟩)
  · intro a ha b hb
    obtain ⟨_, _, rfl⟩ := List.mem_map.1 ha
    obtain ⟨_, _, rfl⟩ := List.mem_map.1 hb
    exact ⟨k, k', rfl, rfl, hturn⟩

theorem turn_le_of_lookup {k' : ControllerKind}
    (hfound : (orphans r selector).lookup name = some (.controller k))
    (hoffers : Offers r selector name k') : turn k ≤ turn k' := by
  obtain ⟨before, after, heq, hnone⟩ := List.lookup_eq_some_iff.1 hfound
  have horder := orphans_in_turn r selector
  have hmem := mem_orphans_iff_offers.2 ⟨k', rfl, hoffers⟩
  rw [heq] at horder hmem
  rcases List.mem_append.1 hmem with hbefore | hmem
  · simpa using hnone _ hbefore
  · rcases List.mem_cons.1 hmem with hsame | hafter
    · cases hsame
      exact le_rfl
    · obtain ⟨_, htail, _⟩ := List.pairwise_append.1 horder
      obtain ⟨_, _, hk, hk', hturn⟩ := (List.pairwise_cons.1 htail).1 _ hafter
      cases hk
      cases hk'
      exact hturn

theorem turn_le_of_added {k' : ControllerKind} (habsent : index.find? name = none)
    (hadded : (index.completeOrphans r selector).find? name = some (.controller k))
    (hoffers : Offers r selector name k') : turn k ≤ turn k' := by
  rw [find?_completeOrphans, habsent, Option.none_or] at hadded
  exact turn_le_of_lookup hadded hoffers

theorem Offers.mem_orphanKinds (h : Offers r selector name k) : k ∈ orphanKinds := by
  obtain ⟨_, _, _, halone, _⟩ := h
  exact (mayStandAlone_iff.1 halone).1

/-- Kinds take their turn by rank, but for ReplicaSets, which come before DeploymentConfigs. -/
theorem ranksAtMost_of_turn_le {k' : ControllerKind} (hk' : k' ∈ orphanKinds)
    (h : turn k ≤ turn k') : (Kind.controller k').RanksAtMost (.controller k) ∨
      k = .replicaSet ∧ k' = .deploymentConfig := by
  rw [Kind.ranksAtMost_iff]
  revert k k'
  decide

theorem eq_of_turn_le_replicaSet (h : turn k ≤ turn .replicaSet) :
    k = .deployment ∨ k = .replicaSet := by
  revert k
  decide

/-- The kind that rank would settle on among those that are offered under a name. -/
structure IsHighestOffered (r : Resources) (selector : Option String) (name : String)
    (kind : Kind) : Prop where
  offered : ∃ k, kind = .controller k ∧ Offers r selector name k
  highest : ∀ k, Offers r selector name k → (Kind.controller k).RanksAtMost kind

/-- A ReplicaSet takes the name from a DeploymentConfig, and no Deployment is there to take it from
both. -/
structure IsPreempted (r : Resources) (selector : Option String) (name : String) : Prop where
  replicaSet : Offers r selector name .replicaSet
  deploymentConfig : Offers r selector name .deploymentConfig
  noDeployment : ¬Offers r selector name .deployment

theorem eq_replicaSet_of_isPreempted (habsent : index.find? name = none)
    (hadded : (index.completeOrphans r selector).find? name = some kind)
    (h : IsPreempted r selector name) : kind = .controller .replicaSet := by
  obtain ⟨k, rfl, hoffers⟩ := offers_of_added habsent hadded
  rcases eq_of_turn_le_replicaSet (turn_le_of_added habsent hadded h.replicaSet) with rfl | rfl
  · exact absurd hoffers h.noDeployment
  · rfl

theorem isHighestOffered_iff_of_added (habsent : index.find? name = none)
    (hadded : (index.completeOrphans r selector).find? name = some kind) :
    IsHighestOffered r selector name kind ↔ ¬IsPreempted r selector name := by
  constructor
  · intro hhighest hpreempted
    obtain rfl := eq_replicaSet_of_isPreempted habsent hadded hpreempted
    have hrank := hhighest.highest _ hpreempted.deploymentConfig
    exact absurd (Kind.ranksAtMost_iff.1 hrank) (by decide)
  · intro hnot
    obtain ⟨k, rfl, hoffers⟩ := offers_of_added habsent hadded
    refine ⟨⟨k, rfl, hoffers⟩, fun k' hoffers' => ?_⟩
    have hturn := turn_le_of_added habsent hadded hoffers'
    rcases ranksAtMost_of_turn_le hoffers'.mem_orphanKinds hturn with hrank | ⟨rfl, rfl⟩
    · exact hrank
    · refine absurd ⟨hoffers, hoffers', fun hdeployment => ?_⟩ hnot
      have : turn .replicaSet ≤ turn .deployment := turn_le_of_added habsent hadded hdeployment
      exact absurd this (by decide)

/-- The pods claim a name for the kinds that are offered under it, and for no other. -/
def PodsClaim (pods : List Pod) (r : Resources) (selector : Option String) (name : String) : Prop :=
  ∀ kind, (∃ pod ∈ pods, pod.Claims name kind) ↔
    ∃ k, kind = .controller k ∧ Offers r selector name k

theorem eq_of_strength_eq {k' : ControllerKind}
    (h : (Kind.controller k).strength = (Kind.controller k').strength) : k = k' := by
  revert k k'
  decide

theorem IsHighestOffered.unique {kind' : Kind} (h : IsHighestOffered r selector name kind)
    (h' : IsHighestOffered r selector name kind') : kind = kind' := by
  obtain ⟨⟨k, rfl, hoffers⟩, hhighest⟩ := h
  obtain ⟨⟨k', rfl, hoffers'⟩, hhighest'⟩ := h'
  have hle := Kind.ranksAtMost_iff.1 (hhighest' k hoffers)
  have hle' := Kind.ranksAtMost_iff.1 (hhighest k' hoffers')
  rw [eq_of_strength_eq (le_antisymm hle hle')]

theorem isHighestOffered_of_find?_ofPods {pods : List Pod} (hclaim : PodsClaim pods r selector name)
    (h : (ofPods pods).find? name = some kind) : IsHighestOffered r selector name kind where
  offered := (hclaim kind).1 (claims_of_find?_ofPods h)
  highest k hoffers := by
    have hclaimed := (hclaim (.controller k)).2 ⟨k, rfl, hoffers⟩
    rcases strength_le_of_claims (r := { pods }) h hclaimed with hle | ⟨_, _, _, _, _, _, hpod⟩
    · exact Kind.ranksAtMost_iff.2 hle
    · cases hpod

theorem find?_ofPods_iff_isHighestOffered {pods : List Pod}
    (hclaim : PodsClaim pods r selector name) :
    (ofPods pods).find? name = some kind ↔ IsHighestOffered r selector name kind := by
  constructor
  · exact isHighestOffered_of_find?_ofPods hclaim
  · intro h
    obtain ⟨pod, hpod, hpodClaim⟩ := (hclaim kind).2 h.offered
    obtain ⟨held, hheld⟩ := Option.isSome_iff_exists.1 (isSome_find?_ofPods hpod hpodClaim)
    rw [hheld, (isHighestOffered_of_find?_ofPods hclaim hheld).unique h]

/-- What the orphans add under a name is the highest ranked kind that is offered there, and so what
it would be if pods claimed the name for the same kinds, exactly if no ReplicaSet takes the name
from a DeploymentConfig; it is that ReplicaSet otherwise. -/
theorem added_agrees_iff (habsent : index.find? name = none)
    (hadded : (index.completeOrphans r selector).find? name = some kind) :
    (IsHighestOffered r selector name kind ↔ ¬IsPreempted r selector name) ∧
      (∀ pods, PodsClaim pods r selector name →
        ((ofPods pods).find? name = some kind ↔ ¬IsPreempted r selector name)) ∧
      (IsPreempted r selector name → kind = .controller .replicaSet) := by
  have hiff := isHighestOffered_iff_of_added habsent hadded
  refine ⟨hiff, fun pods hclaim => ?_, eq_replicaSet_of_isPreempted habsent hadded⟩
  exact (find?_ofPods_iff_isHighestOffered hclaim).trans hiff

/-- One controller of each of some kinds, all under one name. -/
def webs (ks : List ControllerKind) : Resources where
  controllers k := if k ∈ ks then [{ metadata := { name := some "web" } }] else []

/-- One pod for each of some kinds, which claims that name. -/
def webPods (ks : List ControllerKind) : List Pod :=
  ks.map fun k => { metadata := { owners := [⟨k.name, "web", true⟩] } }

theorem offers_webs_iff {ks : List ControllerKind} :
    Offers (webs ks) none "web" k ↔ k ∈ ks ∧ k ∈ orphanKinds := by
  simp only [Offers, mayStandAlone_iff, admits_iff, webs]
  split <;>
    simp [*, standsAlone, templateSelected, Meta.isOwned, Object.anyName, Object.metadata,
      Meta.anyName]

theorem podsClaim_webs {ks : List ControllerKind} (hks : ∀ k ∈ ks, k ∈ orphanKinds) :
    PodsClaim (webPods ks) (webs ks) none "web" := by
  intro kind
  have hname (k : ControllerKind) : Kind.ofName k.name = .controller k :=
    Kind.ofName_name (.controller k)
  have hclaims : (∃ pod ∈ webPods ks, pod.Claims "web" kind) ↔ ∃ k ∈ ks, .controller k = kind := by
    simp [webPods, Pod.Claims, Meta.controllers, Meta.isOwned, hname]
  simp only [hclaims, offers_webs_iff]
  constructor
  · rintro ⟨k, hk, rfl⟩
    exact ⟨k, rfl, hk, hks k hk⟩
  · rintro ⟨k, rfl, hk, _⟩
    exact ⟨k, hk, rfl⟩

theorem webs_added_agrees :
    ((∅ : Index).completeOrphans (webs [.replicaSet, .deploymentConfig, .deployment]) none).find?
        "web" = some (.controller .deployment) ∧
      IsHighestOffered (webs [.replicaSet, .deploymentConfig, .deployment]) none "web"
        (.controller .deployment) ∧
      (ofPods (webPods [.replicaSet, .deploymentConfig, .deployment])).find? "web" =
        some (.controller .deployment) := by
  have hadded : ((∅ : Index).completeOrphans
      (webs [.replicaSet, .deploymentConfig, .deployment]) none).find? "web" =
        some (.controller .deployment) := by decide +kernel
  have hnot : ¬IsPreempted (webs [.replicaSet, .deploymentConfig, .deployment]) none "web" :=
    fun h => h.noDeployment (offers_webs_iff.2 (by decide))
  obtain ⟨hhighest, hpods, _⟩ := added_agrees_iff rfl hadded
  exact ⟨hadded, hhighest.2 hnot, (hpods _ (podsClaim_webs (by decide))).2 hnot⟩

/-- Without a Deployment, what two controllers of one name resolve to depends on whether pods lead
to them. -/
theorem webs_not_highest :
    ((∅ : Index).completeOrphans (webs [.replicaSet, .deploymentConfig]) none).find? "web" =
        some (.controller .replicaSet) ∧
      ¬IsHighestOffered (webs [.replicaSet, .deploymentConfig]) none "web"
        (.controller .replicaSet) ∧
      PodsClaim (webPods [.replicaSet, .deploymentConfig]) (webs [.replicaSet, .deploymentConfig])
        none "web" ∧
      (ofPods (webPods [.replicaSet, .deploymentConfig])).find? "web" =
        some (.controller .deploymentConfig) := by
  refine ⟨by decide +kernel, fun h => ?_, podsClaim_webs (by decide), by decide +kernel⟩
  have hrank := h.highest .deploymentConfig (offers_webs_iff.2 (by decide))
  exact absurd (Kind.ranksAtMost_iff.1 hrank) (by decide)

end WorkloadMap.Index
