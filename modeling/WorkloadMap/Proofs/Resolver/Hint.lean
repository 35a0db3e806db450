import WorkloadMap.Proofs.Resolver.Calls
import WorkloadMap.Proofs.Resolver.Current
import WorkloadMap.Proofs.Resolver.Views

/-!
Hints. A hint keeps most controllers from being fetched, and so most names from resolving to what
they would resolve to otherwise; but what is built is an object of the hinted kind. Main statement:
a workload is told alike with its kind as a hint and without one.
-/
namespace WorkloadMap

theorem Kind.eq_cronJob_of_unranked {kind : Kind} (hknown : kind.isCustom = false)
    (h : kind.isRanked = false) : kind = .controller .cronJob := by
  cases kind with
  | controller k => cases k <;> first | rfl | cases h
  | pod => cases h
  | custom n hn => cases hknown

/-- Of the kinds of workloads a call is for pods or for the hinted kind, or is for what may stand
between a CronJob and its pods. -/
def Call.FitsHint (kind : Kind) (c : Call) : Prop :=
  ∀ asked, c.kind? = some asked → asked = .pod ∨ asked = kind ∨
    kind = .controller .cronJob ∧ (asked = .controller .job ∨ asked = .controller .replicaSet)

namespace Resources

variable {r r' : Resources} {key name : String} {kind : Kind}

theorem build?_congr (hknown : kind.isCustom = false) (hpods : r'.pods = r.pods)
    (hkind : ∀ k, kind = .controller k → r'.controllers k = r.controllers k) :
    r'.build? key name kind kind = r.build? key name kind kind := by
  cases kind with
  | controller k =>
    simp only [build?, controllerWorkload?, controller?, podsWhere, hkind k rfl, hpods]
  | pod => simp only [build?, podWorkload?, pod?, hpods]
  | custom n hn => cases hknown

end Resources

namespace Resolver

variable {r : Resolver} {ns name : String} {kind : Kind} {included : Bool} {found : Resources}
  {k : ControllerKind}

theorem wants_some : r.wants (some kind) k = (r.fetches k && kind == .controller k) := by
  simp [wants]

theorem seeks_some_self (h : r.fetches k = true) : r.seeks (some (.controller k)) k = true := by
  have hwanted : r.wants (some (.controller k)) k = true := by simp [wants_some, h]
  cases k <;> simp [seeks, hwanted]

theorem eq_of_wants_some (h : r.wants (some kind) k = true) : .controller k = kind := by
  rw [wants_some, Bool.and_eq_true, beq_iff_eq] at h
  exact h.2.symm

/-- A known kind as a hint has its own objects sought, and a CronJob those between it and its
pods. -/
theorem eq_of_seeks_some (hknown : kind.isCustom = false) (h : r.seeks (some kind) k = true) :
    .controller k = kind ∨ kind = .controller .cronJob ∧ (k = .job ∨ k = .replicaSet) := by
  cases k with
  | job =>
    rcases (Bool.or_eq_true _ _).to_iff.1 h with hwanted | hcron
    · exact .inl (eq_of_wants_some hwanted)
    · exact .inr ⟨(eq_of_wants_some hcron).symm, .inl rfl⟩
  | replicaSet =>
    rcases (Bool.or_eq_true _ _).to_iff.1 h with hwanted | hunranked
    · exact .inl (eq_of_wants_some hwanted)
    · exact .inr ⟨Kind.eq_cronJob_of_unranked hknown (by simpa using hunranked), .inr rfl⟩
  | deployment | deploymentConfig | replicationController | statefulSet | daemonSet | cronJob =>
    exact .inl (eq_of_wants_some h)

theorem gives_candidates_some (kind : Kind)
    (hjobs : r.config.includes (.controller .cronJob) = true →
      r.config.includes (.controller .job) = true) {limit : Nat} {controllers : List Controller}
    (h : (r.candidates ns name none k).Gives limit controllers) :
    ∃ hinted, (r.candidates ns name (some kind) k).Gives limit hinted ∧
      (kind = .controller k → hinted = controllers) := by
  -- What the hint has sought is sought without it too, and the hinted kind is never left out.
  cases hsought : r.seeks (some kind) k with
  | true =>
    have hfetched : r.fetches k = true := by
      rcases fetches_of_seeks hsought with hfetched | ⟨rfl, hcron⟩
      · exact hfetched
      · rw [← fetches_job_of_cronJob hjobs, fetches_of_wants hcron, Bool.or_true]
    have hsame : r.seeks (some kind) k = r.seeks none k := by
      rw [hsought, seeks_none hjobs, hfetched]
    exact ⟨controllers, candidates_congr hsame ▸ h, fun _ => rfl⟩
  | false =>
    rw [candidates_of_not_seeks hsought]
    refine ⟨[], .done _ _, ?_⟩
    rintro rfl
    have hnone : r.seeks none k = false := by
      rw [seeks_none hjobs]
      by_contra hfetched
      rw [seeks_some_self (by simpa using hfetched)] at hsought
      cases hsought
    rw [candidates_of_not_seeks hnone] at h
    exact Except.ok.inj h.result

theorem gives_workloadResources_some (hjobs : r.config.includes (.controller .cronJob) = true →
      r.config.includes (.controller .job) = true) {limit : Nat}
    (h : (r.workloadResources ns name none).Gives limit found) :
    ∃ hinted, (r.workloadResources ns name (some kind)).Gives limit hinted ∧
      hinted.pods = found.pods ∧
      ∀ k, kind = .controller k → hinted.controllers k = found.controllers k := by
  rw [workloadResources_eq] at h ⊢
  obtain ⟨hpods, hcontrollers⟩ := gives_of_resources h
  choose controllers hgives hsame using fun k =>
    gives_candidates_some kind hjobs (hcontrollers k)
  exact ⟨⟨found.pods, controllers⟩, gives_resources hpods hgives, rfl, hsame⟩

theorem Describes.hinted (hknown : kind.isCustom = false)
    (hjobs : r.config.includes (.controller .cronJob) = true →
      r.config.includes (.controller .job) = true) {w : Workload} {services : List Service}
    (hkind : w.kind = kind) (h : r.Describes ns name none included w services) :
    r.Describes ns name (some kind) included w services := by
  obtain ⟨resources, hfetched, hfound⟩ := h.found
  obtain ⟨hinted, hgives, hpods, hcontrollers⟩ := gives_workloadResources_some hjobs hfetched
  refine { h with found := ⟨hinted, hgives, ?_⟩ }
  rw [Resources.workload?_some_of_isKnown hknown, Resources.build?_congr hknown hpods hcontrollers]
  exact hkind ▸ Resources.build?_of_workload?_none hfound

theorem makes_getWorkload_some (hknown : kind.isCustom = false) :
    Run.Makes (Call.FitsHint kind) (r.getWorkload ns name (some kind) included) := by
  refine makes_getWorkload (fun c hplain asked hasked => ?_) fun c hc asked hasked => ?_
  · cases hplain.symm.trans hasked
  · rcases kind?_of_mem_workloadResources hc with hpods | ⟨k, hkind, hsought⟩
    · exact .inl (Option.some.inj (hasked.symm.trans hpods))
    · obtain rfl := Option.some.inj (hasked.symm.trans hkind)
      rcases eq_of_seeks_some hknown hsought with hself | ⟨hcron, rfl | rfl⟩
      · exact .inr (.inl hself)
      · exact .inr (.inr ⟨hcron, .inl rfl⟩)
      · exact .inr (.inr ⟨hcron, .inr rfl⟩)

/-- With its kind as a hint a workload is told as it is without one, but for what istiod comes to
say in the meantime, although only that kind and the pods are asked for, and for a CronJob what may
stand between it and them. Where what is held is what istiod says, nothing differs at all. -/
theorem getWorkload_some_eq (hknown : kind.isCustom = false)
    (hjobs : r.config.includes (.controller .cronJob) = true →
      r.config.includes (.controller .job) = true) {w : Workload} {p : Progress}
    (hw : (r.getWorkload ns name none included p).1 = .ok w) (hkind : w.kind = kind)
    (p' : Progress) :
    (∃ w', (r.getWorkload ns name (some kind) included p').1 = .ok w' ∧
      w'.withoutStatuses = w.withoutStatuses ∧
      (r.answers ns name none included p = r.answers ns name (some kind) included p' → w' = w) ∧
      (r.IsCurrent p → r.IsCurrent p' → w' = w)) ∧
    Run.Makes (Call.FitsHint kind) (r.getWorkload ns name (some kind) included) := by
  refine ⟨?_, makes_getWorkload_some hknown⟩
  obtain ⟨w₀, services, q, hdescribed, rfl⟩ := described_of_getWorkload hw
  have hkind₀ : w₀.kind = kind := by
    rw [← hkind, Workload.kind_withServicesIf]
    rfl
  have hhinted := (describes_iff.2 ⟨q, hdescribed⟩).hinted hknown hjobs hkind₀
  obtain ⟨q', hdescribed'⟩ := (describes_iff (p := p')).1 hhinted
  have hsame : r.answers ns name none included p = r.answers ns name (some kind) included p' →
      (w₀.answered (r.lookUps ns w₀.pods q')).withServicesIf included services =
        (w₀.answered (r.lookUps ns w₀.pods q)).withServicesIf included services := by
    intro hanswers
    rw [answers_of_described hdescribed, answers_of_described hdescribed'] at hanswers
    rw [hanswers]
  refine ⟨_, getWorkload_of_described hdescribed', ?_, hsame, fun hcurrent hcurrent' => hsame ?_⟩
  · simp only [Workload.withoutStatuses_withServicesIf,
      Workload.withoutStatuses_answered (length_lookUps _ _ _ _)]
  · rw [answers_of_isCurrent hcurrent hdescribed, answers_of_isCurrent hcurrent' hdescribed']

theorem shop_web_hinted :
    ∃ w, (shopResolver.getWorkload "shop" "web" none false {}).1 = .ok w ∧
      w.kind = .controller .deployment ∧
      (∃ w', (shopResolver.getWorkload "shop" "web" (some (.controller .deployment)) false {}).1 =
          .ok w' ∧ w'.withoutStatuses = w.withoutStatuses ∧
        (shopResolver.answers "shop" "web" none false {} =
          shopResolver.answers "shop" "web" (some (.controller .deployment)) false {} → w' = w) ∧
        (shopResolver.IsCurrent {} → shopResolver.IsCurrent {} → w' = w)) ∧
      Run.Makes (Call.FitsHint (.controller .deployment))
        (shopResolver.getWorkload "shop" "web" (some (.controller .deployment)) false) := by
  have htold : (shopResolver.getWorkload "shop" "web" none false {}).1.toOption.map (·.kind) =
      some (.controller .deployment) := by
    decide +kernel
  cases hw : (shopResolver.getWorkload "shop" "web" none false {}).1 with
  | error e =>
    rw [hw] at htold
    cases htold
  | ok w =>
    rw [hw] at htold
    have hkind : w.kind = .controller .deployment := Option.some.inj htold
    exact ⟨w, rfl, hkind, getWorkload_some_eq rfl (fun _ => rfl) hw hkind {}⟩

end Resolver

end WorkloadMap
