import WorkloadMap.Proofs.Workload.Build

/-!
The look-up of one workload. Main statement: without a hint it is the workload listed under the
name, with a known kind as a hint the object of that kind, and with a custom one what the name
resolves to.
-/
namespace WorkloadMap.Resources

variable {r : Resources} {key name : String} {kind : Kind} {w : Workload}

theorem workload?_eq_bind (r : Resources) (key name : String) :
    r.workload? key name none =
      ((r.resolve none).find? name).bind fun kind => r.build? key name kind kind := by
  unfold workload? resolvedKind?
  cases (r.resolve none).find? name <;> rfl

/-- The workload of a name is the one that is listed under it. -/
theorem workload?_eq_some_iff {key : String} {w : Workload} :
    r.workload? key name none = some w ↔ w ∈ r.workloads key none ∧ w.name = name := by
  rw [workload?_eq_bind, Option.bind_eq_some_iff]
  constructor
  · rintro ⟨kind, hentry, hbuilt⟩
    exact ⟨mem_buildAll.2 ⟨name, kind, hentry, hbuilt⟩, (name_kind_of_build? hbuilt).1⟩
  · rintro ⟨hw, hname⟩
    obtain ⟨n, kind, hentry, hbuilt⟩ := mem_buildAll.1 hw
    obtain rfl : n = name := (name_kind_of_build? hbuilt).1.symm.trans hname
    exact ⟨kind, hentry, hbuilt⟩

theorem build?_of_workload?_none {w : Workload} (h : r.workload? key name none = some w) :
    r.build? key name w.kind w.kind = some w := by
  rw [workload?_eq_bind, Option.bind_eq_some_iff] at h
  obtain ⟨kind, _, hbuilt⟩ := h
  obtain ⟨_, rfl⟩ := name_kind_of_build? hbuilt
  exact hbuilt

/-- Only a custom kind is built by what its name resolves to. -/
theorem build?_of_isKnown (hknown : kind.isCustom = false) (resolved : Kind) :
    r.build? key name kind resolved = r.build? key name kind kind := by
  cases kind with
  | controller k => rfl
  | pod => rfl
  | custom n hn => cases hknown

/-- With a known kind as a hint, the object of that kind and name is told, whatever the name
resolves to. -/
theorem workload?_some_of_isKnown (hknown : kind.isCustom = false) :
    r.workload? key name (some kind) = r.build? key name kind kind := by
  unfold workload?
  cases hresolved : r.resolvedKind? name (some kind) with
  | some resolved => exact build?_of_isKnown hknown resolved
  | none =>
    have hcontains : r.contains kind name = false := by
      unfold resolvedKind? at hresolved
      split at hresolved
      · cases hresolved
      · simpa using hresolved
    have hbuild : (r.build? key name kind kind).isSome = false := by
      rw [isSome_build?, hknown, hcontains]
      rfl
    exact (Option.not_isSome_iff_eq_none.1 (by simp [hbuild])).symm

/-- A custom kind bears no object, so that a hint at one adds nothing to the names that resolve. -/
theorem workload?_some_of_isCustom (hcustom : kind.isCustom = true) :
    r.workload? key name (some kind) =
      ((r.resolve none).find? name).map (r.customWorkload key name) := by
  cases kind with
  | custom n unknown =>
    unfold workload? resolvedKind?
    cases (r.resolve none).find? name <;> rfl
  | controller | pod => cases hcustom

theorem workload?_eq_none_iff :
    r.workload? key name none = none ↔ ∀ w ∈ r.workloads key none, w.name ≠ name := by
  rw [Option.eq_none_iff_forall_ne_some]
  refine forall_congr' fun w => ?_
  rw [ne_eq, workload?_eq_some_iff, not_and]

/-- What is looked up under a name, by what is said of its kind. -/
structure LooksUp (r : Resources) (key name : String) : Prop where
  listed : ∀ w, r.workload? key name none = some w ↔ w ∈ r.workloads key none ∧ w.name = name
  unlisted : r.workload? key name none = none ↔ ∀ w ∈ r.workloads key none, w.name ≠ name
  contained : ∀ kind, kind.isCustom = false →
    (r.workload? key name (some kind)).isSome = r.contains kind name
  known : ∀ kind w, kind.isCustom = false → r.workload? key name (some kind) = some w →
    w.name = name ∧ w.kind = kind
  built : ∀ kind resolved, kind.isCustom = false →
    r.workload? key name (some kind) = r.build? key name kind resolved
  resolved : ∀ kind, kind.isCustom = true →
    (r.workload? key name (some kind)).map (fun w => (w.name, w.kind)) =
      ((r.resolve none).find? name).map (name, ·)

theorem looksUp (r : Resources) (key name : String) : r.LooksUp key name where
  listed _ := workload?_eq_some_iff
  unlisted := workload?_eq_none_iff
  contained kind hknown := by
    rw [workload?_some_of_isKnown hknown, isSome_build?, hknown, Bool.false_or]
  known kind w hknown hfound := by
    rw [workload?_some_of_isKnown hknown] at hfound
    exact name_kind_of_build? hfound
  built kind resolved hknown := by
    rw [workload?_some_of_isKnown hknown, build?_of_isKnown hknown resolved]
  resolved kind hcustom := by
    rw [workload?_some_of_isCustom hcustom, Option.map_map]
    congr 1
    funext kind
    simp [customWorkload_name, customWorkload_kind]

end WorkloadMap.Resources
