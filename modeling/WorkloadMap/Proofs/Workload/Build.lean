import WorkloadMap.Workload.Build

/-!
What is built from an index. Main statements: a workload has the name and the kind of its entry, an
entry is left out only if it has no object, and what is built comes in the order of names.
-/
namespace WorkloadMap

namespace Resources

variable {r : Resources} {key name : String} {kind : Kind} {w : Workload}

theorem customWorkload_name : (r.customWorkload key name kind).name = name := by
  unfold customWorkload
  split <;> rfl

theorem customWorkload_kind : (r.customWorkload key name kind).kind = kind := by
  unfold customWorkload
  split <;> rfl

theorem controllerWorkload?_eq_some {k : ControllerKind}
    (h : r.controllerWorkload? key k name = some w) :
    ∃ c, r.controller? k name = some c ∧ w.name = name ∧ w.kind = .controller k ∧
      w.pods = r.podsWhere key fun pod =>
        (Selector.equalities c.template).selects pod.metadata.labels := by
  obtain ⟨c, hc, rfl⟩ := Option.map_eq_some_iff.1 h
  exact ⟨c, hc, rfl, rfl, rfl⟩

theorem podWorkload?_eq_some (h : r.podWorkload? key name = some w) :
    ∃ pod, r.pod? name = some pod ∧ w.name = name ∧ w.kind = .pod ∧
      w.pods = [PodSummary.ofPod key pod] := by
  obtain ⟨pod, hpod, rfl⟩ := Option.map_eq_some_iff.1 h
  exact ⟨pod, hpod, rfl, rfl, rfl⟩

/-- A workload built as what it resolved to has the name and the kind of its entry. -/
theorem name_kind_of_build? (h : r.build? key name kind kind = some w) :
    w.name = name ∧ w.kind = kind := by
  cases kind with
  | controller k =>
    obtain ⟨_, _, hname, hkind, _⟩ := controllerWorkload?_eq_some h
    exact ⟨hname, hkind⟩
  | pod =>
    obtain ⟨_, _, hname, hkind, _⟩ := podWorkload?_eq_some h
    exact ⟨hname, hkind⟩
  | custom n hn =>
    cases Option.some.inj h
    exact ⟨customWorkload_name, customWorkload_kind⟩

theorem isSome_build? (r : Resources) (key name : String) (kind : Kind) :
    (r.build? key name kind kind).isSome = (kind.isCustom || r.contains kind name) := by
  cases kind with
  | controller k => simp [build?, controllerWorkload?, contains, Kind.isCustom]
  | pod => simp [build?, podWorkload?, contains, Kind.isCustom]
  | custom n hn => rfl

theorem mem_buildAll {index : Index} :
    w ∈ r.buildAll key index ↔
      ∃ name kind, index.find? name = some kind ∧ r.build? key name kind kind = some w := by
  unfold buildAll
  rw [List.mem_filterMap]
  constructor
  · rintro ⟨⟨name, kind⟩, hentry, hbuilt⟩
    exact ⟨name, kind, NameMap.mem_entries_iff.1 hentry, hbuilt⟩
  · rintro ⟨name, kind, hentry, hbuilt⟩
    exact ⟨(name, kind), NameMap.mem_entries_iff.2 hentry, hbuilt⟩

theorem ascending_buildAll (index : Index) :
    ((r.buildAll key index).map (·.name)).Pairwise (· < ·) := by
  unfold buildAll
  rw [List.pairwise_map]
  refine List.Pairwise.filterMap _ (fun a a' hlt b hb b' hb' => ?_) index.ascending
  rw [(name_kind_of_build? hb).1, (name_kind_of_build? hb').1]
  exact hlt

theorem exists_mem_buildAll {index : Index} :
    (∃ w ∈ r.buildAll key index, w.name = name ∧ w.kind = kind) ↔
      index.find? name = some kind ∧ (kind.isCustom || r.contains kind name) = true := by
  constructor
  · rintro ⟨w, hw, rfl, rfl⟩
    obtain ⟨name, kind, hentry, hbuilt⟩ := mem_buildAll.1 hw
    obtain ⟨rfl, rfl⟩ := name_kind_of_build? hbuilt
    refine ⟨hentry, ?_⟩
    rw [← r.isSome_build? key, hbuilt]
    rfl
  · rintro ⟨hentry, hobject⟩
    rw [← r.isSome_build? key] at hobject
    obtain ⟨w, hw⟩ := Option.isSome_iff_exists.1 hobject
    exact ⟨w, mem_buildAll.2 ⟨name, kind, hentry, hw⟩, name_kind_of_build? hw⟩

end Resources

end WorkloadMap
