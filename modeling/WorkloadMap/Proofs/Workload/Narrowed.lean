import WorkloadMap.Proofs.Index.Entry
import WorkloadMap.Proofs.Resources.Named
import WorkloadMap.Proofs.Workload.LookUp

/-!
What one workload needs. Of the controllers that have no part in who owns what, those of other names
change nothing. Main statement: a name resolves to the same workload with and without them.
-/
namespace WorkloadMap

namespace Resources

/-- Without the roots of other names. -/
def narrowed (r : Resources) (name : String) : Resources where
  pods := r.pods
  controllers k :=
    if k ∈ ControllerKind.roots then (r.controller? k name).toList else r.controllers k

variable {r : Resources} {name : String} {k : ControllerKind}

theorem controllers_narrowed_of_notMem (h : k ∉ ControllerKind.roots) :
    (r.narrowed name).controllers k = r.controllers k :=
  if_neg h

theorem controllers_narrowed_of_mem (h : k ∈ ControllerKind.roots) :
    (r.narrowed name).controllers k = (r.controller? k name).toList :=
  if_pos h

theorem controller?_narrowed_of_notMem (h : k ∉ ControllerKind.roots) (other : String) :
    (r.narrowed name).controller? k other = r.controller? k other := by
  unfold controller?
  rw [controllers_narrowed_of_notMem h]

theorem find?_toList_find? {α : Type} [Object α] (objects : List α) (name : String) :
    Object.find? (Object.find? objects name).toList name = Object.find? objects name := by
  cases hfound : Object.find? objects name with
  | none => rfl
  | some o =>
    have hname := List.find?_some hfound
    simp [Object.find?, hname]

theorem controller?_narrowed : (r.narrowed name).controller? k name = r.controller? k name := by
  by_cases hk : k ∈ ControllerKind.roots
  · unfold controller?
    rw [controllers_narrowed_of_mem hk]
    exact find?_toList_find? _ _
  · exact controller?_narrowed_of_notMem hk name

theorem mem_controllers_narrowed (hnamed : r.Named) {c : Controller}
    (hname : Object.anyName c = name) :
    c ∈ (r.narrowed name).controllers k ↔ c ∈ r.controllers k := by
  by_cases hk : k ∈ ControllerKind.roots
  · rw [controllers_narrowed_of_mem hk, Option.mem_toList, hnamed.controller?_eq_some_iff]
    exact and_iff_left hname
  · rw [controllers_narrowed_of_notMem hk]

end Resources

namespace Index

variable {r : Resources} {name : String}

theorem ownersOf_narrowed (child : String) (kind : Kind) :
    ownersOf (r.narrowed name) child kind = ownersOf r child kind := by
  cases kind with
  | controller k =>
    by_cases hk : k ∈ childKinds
    · have hroot := ControllerKind.notMem_roots_of_child hk
      simp only [ownersOf, Resources.controller?_narrowed_of_notMem hroot]
    · simp only [ownersOf, hk, ↓reduceIte]
  | pod => rfl
  | custom => rfl

theorem isLeftBehind_narrowed (kind : Kind) (owner : OwnerReference) :
    isLeftBehind (r.narrowed name) kind owner = isLeftBehind r kind owner := by
  unfold isLeftBehind
  rw [Resources.controller?_narrowed_of_notMem (by decide)]

theorem replaceChildren_narrowed (index : Index) :
    index.replaceChildren (r.narrowed name) = index.replaceChildren r := by
  have hhops : index.hops (r.narrowed name) = index.hops r := by
    unfold hops
    simp only [ownersOf_narrowed]
  unfold replaceChildren
  simp only [hhops, isLeftBehind_narrowed]

/-- Of names that all stand for one thing, a look-up only asks whether one is there. -/
theorem lookup_map_const {α β : Type} (nameOf : α → String) (b : β) (as : List α) (name : String) :
    (as.map fun a => (nameOf a, b)).lookup name =
      if ∃ a ∈ as, nameOf a = name then some b else none := by
  induction as with
  | nil => simp
  | cons a as ih =>
    rw [List.map_cons, List.lookup_cons]
    by_cases ha : nameOf a = name
    · subst ha
      simp
    · have hne : (name == nameOf a) = false := beq_eq_false_iff_ne.2 (Ne.symm ha)
      rw [hne, ih]
      simp [ha]

theorem lookup_flatMap_congr {α β : Type} {f g : α → List (String × β)} {as : List α}
    {name : String} (h : ∀ a ∈ as, (f a).lookup name = (g a).lookup name) :
    (as.flatMap f).lookup name = (as.flatMap g).lookup name := by
  induction as with
  | nil => rfl
  | cons a as ih =>
    rw [List.flatMap_cons, List.flatMap_cons, List.lookup_append, List.lookup_append,
      h a List.mem_cons_self, ih fun b hb => h b (List.mem_cons_of_mem a hb)]

theorem lookup_orphans_narrowed (hnamed : r.Named) (selector : Option String) :
    (orphans (r.narrowed name) selector).lookup name = (orphans r selector).lookup name := by
  unfold orphans
  apply lookup_flatMap_congr
  intro k _
  rw [lookup_map_const, lookup_map_const]
  -- Only the controllers of the name itself decide, and narrowing keeps those.
  have hsame : ∀ c, c ∈ (r.narrowed name).controllers k ∧ Object.anyName c = name ↔
      c ∈ r.controllers k ∧ Object.anyName c = name := fun c =>
    and_congr_left fun hname => Resources.mem_controllers_narrowed hnamed hname
  congr 1
  simp only [List.mem_filter, eq_iff_iff]
  refine exists_congr fun c => ?_
  rw [and_right_comm, hsame c, and_right_comm]

end Index

namespace Resources

variable {r : Resources} {name : String}

theorem find?_resolve_narrowed (hnamed : r.Named) (selector : Option String) :
    ((r.narrowed name).resolve selector).find? name = (r.resolve selector).find? name := by
  unfold resolve
  rw [Index.find?_completeOrphans, Index.find?_completeOrphans, Index.replaceChildren_narrowed,
    Index.lookup_orphans_narrowed hnamed]
  rfl

theorem build?_narrowed (key : String) (asked resolved : Kind) :
    (r.narrowed name).build? key name asked resolved = r.build? key name asked resolved := by
  cases asked with
  | controller k =>
    simp only [build?, controllerWorkload?, controller?_narrowed]
    rfl
  | pod => rfl
  | custom => rfl

theorem workload?_narrowed (hnamed : r.Named) (key : String) :
    (r.narrowed name).workload? key name none = r.workload? key name none := by
  rw [workload?_eq_bind, workload?_eq_bind, find?_resolve_narrowed hnamed]
  congr
  funext kind
  exact build?_narrowed key kind kind

end Resources

end WorkloadMap
