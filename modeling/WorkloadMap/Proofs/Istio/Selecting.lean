import WorkloadMap.Istio.Object
import WorkloadMap.Proofs.Json.Table

/-!
The workloads that objects select. Main statement: an object selects a workload exactly if the
labels it asks for are where its kind has them, are some, and are all labels of the workload.
-/
namespace WorkloadMap.IstioObject

/-- Where an object has the labels it asks of workloads. -/
inductive Asks (o : IstioObject) (wanted : Json) : Prop
  | gateway (kind : o.kind = .gateway) (h : o.spec.get? "selector" = some wanted)
  | policy (kind : o.kind ∈ [.authorizationPolicy, .peerAuthentication, .requestAuthentication])
      (selector : Json) (h : o.spec.get? "selector" = some selector)
      (matched : selector.get? "matchLabels" = some wanted)
  | proxy (kind : o.kind ∈ [.sidecar, .envoyFilter]) (selector : Json)
      (h : o.spec.get? "workloadSelector" = some selector)
      (labels : selector.get? "labels" = some wanted)

/-- The labels are asked for by an object of texts, of which there is at least one. -/
def Selects (o : IstioObject) (labels : Labels) : Prop :=
  ∃ wanted, o.Asks wanted ∧ (∃ ms, wanted.members? = some ms) ∧
    (∃ name x, wanted.get? name = some x) ∧
      ∀ name x, wanted.get? name = some x → ∃ t, x = .text t ∧ labels.find? name = some t

variable {o : IstioObject} {labels : Labels}

theorem asks_iff {wanted : Json} : o.Asks wanted ↔
    ∃ path, selectorPath o.kind = some path ∧
      path.foldlM (fun v step => v.get? step) o.spec = some wanted := by
  constructor
  · intro h
    cases h with
    | gateway kind h => exact ⟨_, by rw [kind]; rfl, by simpa using h⟩
    | policy kind selector h matched =>
      refine ⟨["selector", "matchLabels"], ?_, by simp [h, matched]⟩
      simp only [List.mem_cons, List.not_mem_nil, or_false] at kind
      rcases kind with kind | kind | kind <;> rw [kind] <;> rfl
    | proxy kind selector h labels =>
      refine ⟨["workloadSelector", "labels"], ?_, by simp [h, labels]⟩
      simp only [List.mem_cons, List.not_mem_nil, or_false] at kind
      rcases kind with kind | kind <;> rw [kind] <;> rfl
  · rintro ⟨path, hpath, hwanted⟩
    cases hkind : o.kind with
    | gateway =>
      rw [hkind] at hpath
      obtain rfl := Option.some.inj hpath
      exact .gateway hkind (by simpa using hwanted)
    | authorizationPolicy | peerAuthentication | requestAuthentication =>
      rw [hkind] at hpath
      obtain rfl := Option.some.inj hpath
      obtain ⟨selector, h, hmatched⟩ : ∃ selector, o.spec.get? "selector" = some selector ∧
          selector.get? "matchLabels" = some wanted := by
        simpa [Option.bind_eq_some_iff] using hwanted
      exact .policy (by simp [hkind]) selector h hmatched
    | sidecar | envoyFilter =>
      rw [hkind] at hpath
      obtain rfl := Option.some.inj hpath
      obtain ⟨selector, h, hlabels⟩ : ∃ selector, o.spec.get? "workloadSelector" = some selector ∧
          selector.get? "labels" = some wanted := by
        simpa [Option.bind_eq_some_iff] using hwanted
      exact .proxy (by simp [hkind]) selector h hlabels
    | virtualService | destinationRule =>
      rw [hkind] at hpath
      cases hpath

theorem workloadSelector_eq_some_iff {s : Selector} : o.workloadSelector = some s ↔
    ∃ wanted, o.Asks wanted ∧ ∃ texts, wanted.texts? = some texts ∧ s = .equalities texts := by
  simp only [workloadSelector, asks_iff, Option.bind_eq_bind, Option.bind_eq_some_iff,
    Option.map_eq_some_iff]
  constructor
  · rintro ⟨path, hpath, wanted, hwanted, texts, htexts, rfl⟩
    exact ⟨wanted, ⟨path, hpath, hwanted⟩, texts, htexts, rfl⟩
  · rintro ⟨wanted, ⟨path, hpath, hwanted⟩, texts, htexts, rfl⟩
    exact ⟨path, hpath, wanted, hwanted, texts, htexts, rfl⟩

theorem selectsWorkload_iff_exists : o.selectsWorkload labels = true ↔
    ∃ s, o.workloadSelector = some s ∧ s.isEmpty = false ∧ s.selects labels = true := by
  unfold selectsWorkload
  cases o.workloadSelector <;> simp

theorem isEmpty_equalities_eq_false_iff {texts : Labels} :
    (Selector.equalities texts).isEmpty = false ↔ ∃ name t, texts.find? name = some t := by
  simp only [Selector.isEmpty, NameMap.isEmpty, List.isEmpty_eq_false_iff_exists_mem, Prod.exists,
    NameMap.mem_entries_iff]

/-- Labels that are missing, malformed or none select nothing. -/
theorem selectsWorkload_iff : o.selectsWorkload labels = true ↔ o.Selects labels := by
  rw [selectsWorkload_iff_exists]
  constructor
  · rintro ⟨s, hs, hsome, hselects⟩
    obtain ⟨wanted, hasks, texts, htexts, rfl⟩ := workloadSelector_eq_some_iff.1 hs
    obtain ⟨hobject, htext, hfind⟩ := Json.texts?_eq_some_iff.1 htexts
    obtain ⟨name, t, hname⟩ := isEmpty_equalities_eq_false_iff.1 hsome
    refine ⟨wanted, hasks, hobject, ⟨name, _, (hfind name t).1 hname⟩, fun name x hx => ?_⟩
    obtain ⟨t, rfl⟩ := htext name x hx
    exact ⟨t, rfl, Selector.selects_equalities.1 hselects name t ((hfind name t).2 hx)⟩
  · rintro ⟨wanted, hasks, ⟨ms, hms⟩, ⟨name, x, hx⟩, hall⟩
    have htext : ∀ name x, wanted.get? name = some x → ∃ t, x = .text t := fun name x hx =>
      (hall name x hx).imp fun _ h => h.1
    obtain ⟨texts, htexts⟩ := Json.exists_texts? hms htext
    obtain ⟨-, -, hfind⟩ := Json.texts?_eq_some_iff.1 htexts
    refine ⟨_, workloadSelector_eq_some_iff.2 ⟨wanted, hasks, texts, htexts, rfl⟩, ?_, ?_⟩
    · obtain ⟨t, rfl⟩ := htext name x hx
      exact isEmpty_equalities_eq_false_iff.2 ⟨name, t, (hfind name t).2 hx⟩
    · refine Selector.selects_equalities.2 fun name t ht => ?_
      obtain ⟨t', heq, hlabel⟩ := hall name _ ((hfind name t).1 ht)
      cases heq
      exact hlabel

instance (o : IstioObject) (labels : Labels) : Decidable (o.Selects labels) :=
  decidable_of_iff _ selectsWorkload_iff

end WorkloadMap.IstioObject
