import Mathlib.Data.Fintype.OfMap
import Mathlib.Data.List.Nodup
import WorkloadMap.Index

/-!
Namespaces whose objects are told apart by their names, and the references by which pods and
children name what manages them. Main statements: what is found under a name is the one object that
bears it, and when references and objects agree on the kinds that names stand for.
-/
namespace WorkloadMap

instance : Fintype ControllerKind := .ofList ControllerKind.all ControllerKind.mem_all

namespace ControllerKind

/-- Kinds that manage pods without a part in the owners of others. -/
def roots : List ControllerKind := [.deployment, .deploymentConfig, .statefulSet, .daemonSet]

theorem notMem_roots_of_child {k : ControllerKind} (h : k ∈ Index.childKinds) : k ∉ roots := by
  revert h
  cases k <;> decide

end ControllerKind

namespace Object

variable {α : Type} [Object α] {objects : List α}

structure Named (objects : List α) : Prop where
  isSome : ∀ o ∈ objects, (metadata o).name.isSome
  nodup : (objects.map fun o => (metadata o).name).Nodup

instance : Decidable (Named objects) :=
  decidable_of_iff
    ((∀ o ∈ objects, (metadata o).name.isSome) ∧ (objects.map fun o => (metadata o).name).Nodup)
    ⟨fun ⟨hsome, hnodup⟩ => ⟨hsome, hnodup⟩, fun ⟨hsome, hnodup⟩ => ⟨hsome, hnodup⟩⟩

theorem Named.name_eq (h : Named objects) {o : α} (ho : o ∈ objects) :
    (metadata o).name = some (anyName o) := by
  obtain ⟨name, hname⟩ := Option.isSome_iff_exists.1 (h.isSome o ho)
  rw [hname]
  simp [anyName, Meta.anyName, hname]

theorem Named.eq_of_anyName_eq (h : Named objects) {o o' : α} (ho : o ∈ objects)
    (ho' : o' ∈ objects) (hname : anyName o = anyName o') : o = o' := by
  apply List.inj_on_of_nodup_map h.nodup ho ho'
  rw [h.name_eq ho, h.name_eq ho', hname]

theorem Named.find?_eq_some_iff (h : Named objects) {name : String} {o : α} :
    find? objects name = some o ↔ o ∈ objects ∧ anyName o = name := by
  unfold find?
  constructor
  · intro hfound
    have ho : o ∈ objects := List.mem_of_find?_eq_some hfound
    have hname : (metadata o).name = some name := by simpa using List.find?_some hfound
    rw [h.name_eq ho] at hname
    exact ⟨ho, Option.some.inj hname⟩
  · rintro ⟨ho, rfl⟩
    have hname : ((metadata o).name == some (anyName o)) = true := by simp [h.name_eq ho]
    cases hfound : objects.find? fun o' => (metadata o').name == some (anyName o) with
    | none => exact absurd hname (List.find?_eq_none.1 hfound o ho)
    | some o' =>
      have ho' : o' ∈ objects := List.mem_of_find?_eq_some hfound
      have hname' : (metadata o').name = some (anyName o) := by simpa using List.find?_some hfound
      rw [h.name_eq ho'] at hname'
      rw [h.eq_of_anyName_eq ho' ho (Option.some.inj hname')]

end Object

namespace Resources

/-- Every object has a name of its own among those of its kind. -/
structure Named (r : Resources) : Prop where
  pods : Object.Named r.pods
  controllers : ∀ k, Object.Named (r.controllers k)

instance (r : Resources) : Decidable r.Named :=
  decidable_of_iff (Object.Named r.pods ∧ ∀ k, Object.Named (r.controllers k))
    ⟨fun ⟨hpods, hcontrollers⟩ => ⟨hpods, hcontrollers⟩,
      fun ⟨hpods, hcontrollers⟩ => ⟨hpods, hcontrollers⟩⟩

theorem Named.pod?_eq_some_iff {r : Resources} (h : r.Named) {name : String} {pod : Pod} :
    r.pod? name = some pod ↔ pod ∈ r.pods ∧ Object.anyName pod = name :=
  h.pods.find?_eq_some_iff

theorem Named.controller?_eq_some_iff {r : Resources} (h : r.Named) {k : ControllerKind}
    {name : String} {c : Controller} :
    r.controller? k name = some c ↔ c ∈ r.controllers k ∧ Object.anyName c = name :=
  (h.controllers k).find?_eq_some_iff

theorem Named.contains_pod {r : Resources} (h : r.Named) {pod : Pod} (hpod : pod ∈ r.pods) :
    r.contains .pod (Object.anyName pod) = true := by
  simp [contains, h.pod?_eq_some_iff.2 ⟨hpod, rfl⟩]

theorem Named.contains_controller {r : Resources} (h : r.Named) {k : ControllerKind}
    {c : Controller} (hc : c ∈ r.controllers k) :
    r.contains (.controller k) (Object.anyName c) = true := by
  simp [contains, h.controller?_eq_some_iff.2 ⟨hc, rfl⟩]

theorem Named.exists_of_contains {r : Resources} (h : r.Named) {k : ControllerKind}
    {name : String} (hcontains : r.contains (.controller k) name = true) :
    ∃ c ∈ r.controllers k, Object.anyName c = name := by
  obtain ⟨c, hc⟩ := Option.isSome_iff_exists.1 hcontains
  exact ⟨c, h.controller?_eq_some_iff.1 hc⟩

def objects (r : Resources) : List (Kind × String) :=
  (r.pods.map fun pod => (.pod, Object.anyName pod)) ++
    ControllerKind.all.flatMap fun k =>
      (r.controllers k).map fun c => (.controller k, Object.anyName c)

theorem Named.mem_objects {r : Resources} (h : r.Named) {kind : Kind} {name : String} :
    (kind, name) ∈ r.objects ↔ r.contains kind name = true := by
  cases kind with
  | controller k =>
    have hcontains : r.contains (.controller k) name = true ↔
        ∃ c ∈ r.controllers k, Object.anyName c = name :=
      ⟨h.exists_of_contains, fun ⟨_, hc, hname⟩ => hname ▸ h.contains_controller hc⟩
    simp [objects, hcontains]
  | pod => simp [objects, contains, Option.isSome_iff_exists, h.pod?_eq_some_iff]
  | custom => simp [objects, contains]

/-- The references by which the pods and the fetched children name what manages them. -/
def managers (r : Resources) : List OwnerReference :=
  r.pods.flatMap (·.metadata.controllers) ++
    Index.childKinds.flatMap fun k => (r.controllers k).flatMap (·.metadata.controllers)

theorem mem_managers {r : Resources} {o : OwnerReference} :
    o ∈ r.managers ↔ (∃ pod ∈ r.pods, o ∈ pod.metadata.controllers) ∨
      ∃ k ∈ Index.childKinds, ∃ c ∈ r.controllers k, o ∈ c.metadata.controllers := by
  simp [managers]

/-- A name stands for a kind if something is managed by that kind under the name, or if an object of
the kind bears the name. -/
def StandsFor (r : Resources) (name : String) (kind : Kind) : Prop :=
  (∃ o ∈ r.managers, o.name = name ∧ Kind.ofName o.kind = kind) ∨ r.contains kind name = true

def Unambiguous (r : Resources) : Prop :=
  ∀ name kind kind', r.StandsFor name kind → r.StandsFor name kind' → kind = kind'

def OneLevel (r : Resources) : Prop :=
  ∀ k ∈ Index.childKinds, ∀ c ∈ r.controllers k, ∀ o ∈ c.metadata.controllers,
    ∀ k' ∈ Index.childKinds, Kind.ofName o.kind ≠ .controller k'

instance (r : Resources) : Decidable r.OneLevel := by
  unfold OneLevel
  infer_instance

/-- Names tell objects of all kinds apart, and references say truly what the objects in them are. -/
structure WellNamed (r : Resources) : Prop extends Named r where
  apart : ∀ a ∈ r.objects, ∀ b ∈ r.objects, a.2 = b.2 → a.1 = b.1
  truthful : ∀ o ∈ r.managers, ∀ a ∈ r.objects, a.2 = o.name → Kind.ofName o.kind = a.1

instance (r : Resources) : Decidable r.WellNamed :=
  decidable_of_iff
    (r.Named ∧ (∀ a ∈ r.objects, ∀ b ∈ r.objects, a.2 = b.2 → a.1 = b.1) ∧
      ∀ o ∈ r.managers, ∀ a ∈ r.objects, a.2 = o.name → Kind.ofName o.kind = a.1)
    ⟨fun ⟨hnamed, hapart, htrue⟩ => ⟨hnamed, hapart, htrue⟩,
      fun ⟨hnamed, hapart, htrue⟩ => ⟨hnamed, hapart, htrue⟩⟩

/-- References to one name agree on its kind, also where no object bears it. -/
structure WellReferenced (r : Resources) : Prop extends WellNamed r where
  consistent : ∀ o ∈ r.managers, ∀ o' ∈ r.managers, o.name = o'.name → o.kind = o'.kind

/-- Pods manage nothing, and children manage no children. -/
structure WellOwned (r : Resources) : Prop extends WellReferenced r where
  notPod : ∀ o ∈ r.managers, Kind.ofName o.kind ≠ .pod
  oneLevel : r.OneLevel

instance (r : Resources) : Decidable r.WellOwned :=
  decidable_of_iff
    (r.WellNamed ∧ (∀ o ∈ r.managers, ∀ o' ∈ r.managers, o.name = o'.name → o.kind = o'.kind) ∧
      (∀ o ∈ r.managers, Kind.ofName o.kind ≠ .pod) ∧ r.OneLevel)
    ⟨fun ⟨hnamed, hconsistent, hpod, hlevel⟩ => ⟨⟨hnamed, hconsistent⟩, hpod, hlevel⟩,
      fun ⟨⟨hnamed, hconsistent⟩, hpod, hlevel⟩ => ⟨hnamed, hconsistent, hpod, hlevel⟩⟩

/-- Pods behind the ReplicaSet of a Deployment, behind the Job of a CronJob and behind one that has
outlived its own, and a pod that nothing owns. -/
def shop : Resources where
  pods := [
    { metadata :=
        { name := some "web-1-a", ns := some "shop", labels := .ofList [("app", "web")]
          owners := [⟨"ReplicaSet", "web-1", true⟩] } },
    { metadata :=
        { name := some "report-1-a", ns := some "shop", labels := .ofList [("app", "report")]
          owners := [⟨"Job", "report-1", true⟩] } },
    { metadata :=
        { name := some "backup-1-a", ns := some "shop", labels := .ofList [("app", "backup")]
          owners := [⟨"Job", "backup-1", true⟩] } },
    { metadata := { name := some "toolbox", ns := some "shop" } }]
  controllers
    | .deployment =>
      [{ metadata := { name := some "web", ns := some "shop" }
         template := .ofList [("app", "web")] }]
    | .replicaSet =>
      [{ metadata :=
           { name := some "web-1", ns := some "shop"
             owners := [⟨"Deployment", "web", true⟩] }
         template := .ofList [("app", "web")] }]
    | .job =>
      [{ metadata :=
           { name := some "report-1", ns := some "shop"
             owners := [⟨"CronJob", "report", true⟩] }
         template := .ofList [("app", "report")] },
       { metadata :=
           { name := some "backup-1", ns := some "shop"
             owners := [⟨"CronJob", "backup", true⟩] }
         template := .ofList [("app", "backup")] }]
    | .cronJob => [{ metadata := { name := some "report", ns := some "shop" } }]
    | _ => []

theorem WellNamed.kind_eq {r : Resources} (h : r.WellNamed) {kind kind' : Kind} {name : String}
    (hkind : r.contains kind name = true) (hkind' : r.contains kind' name = true) : kind = kind' :=
  h.apart _ (h.mem_objects.2 hkind) _ (h.mem_objects.2 hkind') rfl

theorem WellNamed.ofName_kind_of_contains {r : Resources} (h : r.WellNamed) {o : OwnerReference}
    (ho : o ∈ r.managers) {kind : Kind} (hkind : r.contains kind o.name = true) :
    Kind.ofName o.kind = kind :=
  h.truthful o ho _ (h.mem_objects.2 hkind) rfl

theorem WellNamed.ofName_kind {r : Resources} (h : r.WellNamed) {o : OwnerReference}
    (ho : o ∈ r.managers) {k : ControllerKind} {c : Controller} (hc : c ∈ r.controllers k)
    (hname : Object.anyName c = o.name) : Kind.ofName o.kind = .controller k :=
  h.ofName_kind_of_contains ho (hname ▸ h.contains_controller hc)

theorem WellReferenced.unambiguous {r : Resources} (h : r.WellReferenced) : r.Unambiguous := by
  rintro name kind kind' (⟨o, ho, rfl, rfl⟩ | hobject) (⟨o', ho', hname, rfl⟩ | hobject')
  · rw [h.consistent o ho o' ho' hname.symm]
  · exact h.ofName_kind_of_contains ho hobject'
  · subst hname
    exact (h.ofName_kind_of_contains ho' hobject).symm
  · exact h.kind_eq hobject hobject'

end Resources

end WorkloadMap
