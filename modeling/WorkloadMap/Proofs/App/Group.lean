import WorkloadMap.App

/-!
The grouping of services and workloads into apps. An object is filed under at most one name, and
what is under a name is the fold over the objects that are filed there. Main statement: under the
name of an app are the services and workloads of that app, in their order.
-/
namespace WorkloadMap

namespace NameMap

variable {α β : Type}

theorem find?_filed (m : NameMap β) (file : Option String) (put : Option β → β) (name : String) :
    (match file with
      | none => m
      | some key => m.update key put).find? name =
      if file = some name then some (put (m.find? name)) else m.find? name := by
  cases file with
  | none => simp
  | some key =>
    dsimp only
    rw [find?_update]
    by_cases hname : name = key
    · simp [hname]
    · rw [if_neg hname, if_neg fun heq => hname (Option.some.inj heq).symm]

/-- Under a name a fold leaves what the entries filed there make of what was there before. -/
theorem find?_foldl_filed {add : NameMap β → α → NameMap β} {file : α → Option String}
    {put : α → Option β → β}
    (hadd : ∀ m a, add m a = match file a with
      | none => m
      | some key => m.update key (put a))
    (as : List α) (m : NameMap β) (name : String) :
    (as.foldl add m).find? name =
      (as.filter fun a => file a == some name).foldl (fun held a => some (put a held))
        (m.find? name) := by
  induction as generalizing m with
  | nil => rfl
  | cons a as ih =>
    rw [List.foldl_cons, ih, hadd, find?_filed]
    by_cases ha : file a = some name
    · rw [if_pos ha, List.filter_cons_of_pos (by simp [ha]), List.foldl_cons]
    · rw [if_neg ha, List.filter_cons_of_neg (by simp [ha])]

end NameMap

namespace AppMembers

variable {label name : String}

/-- There is no app without members. -/
def ofLists? (services : List Service) (workloads : List Workload) : Option AppMembers :=
  if services.isEmpty && workloads.isEmpty then none else some ⟨services, workloads⟩

theorem getD_ofLists? (services : List Service) (workloads : List Workload) :
    (ofLists? services workloads).getD {} = ⟨services, workloads⟩ := by
  unfold ofLists?
  split
  next h =>
    rw [Bool.and_eq_true, List.isEmpty_iff, List.isEmpty_iff] at h
    rw [h.1, h.2]
    rfl
  next => rfl

theorem ofLists?_eq_some_iff {services : List Service} {workloads : List Workload}
    {members : AppMembers} : ofLists? services workloads = some members ↔
      members = ⟨services, workloads⟩ ∧ (services ≠ [] ∨ workloads ≠ []) := by
  unfold ofLists?
  by_cases h : services = [] ∧ workloads = []
  · simp [h]
  · rw [if_neg (by simpa using h)]
    rw [Decidable.not_and_iff_not_or_not] at h
    simp [h, eq_comm]

theorem foldl_services (held services : List Service) (workloads : List Workload) :
    services.foldl (fun members s => some { members.getD {} with
        services := (members.getD {}).services ++ [s] }) (ofLists? held workloads) =
      ofLists? (held ++ services) workloads := by
  induction services generalizing held with
  | nil => simp
  | cons s services ih =>
    have hfirst : some ⟨held ++ [s], workloads⟩ = ofLists? (held ++ [s]) workloads := by
      simp [ofLists?]
    rw [List.foldl_cons, getD_ofLists?, hfirst, ih, List.append_assoc]
    rfl

theorem foldl_workloads (services : List Service) (held workloads : List Workload) :
    workloads.foldl (fun members w => some { members.getD {} with
        workloads := (members.getD {}).workloads ++ [w] }) (ofLists? services held) =
      ofLists? services (held ++ workloads) := by
  induction workloads generalizing held with
  | nil => simp
  | cons w workloads ih =>
    have hfirst : some ⟨services, held ++ [w]⟩ = ofLists? services (held ++ [w]) := by
      simp [ofLists?]
    rw [List.foldl_cons, getD_ofLists?, hfirst, ih, List.append_assoc]
    rfl

theorem find?_foldl_addService (services : List Service) (apps : NameMap AppMembers) :
    (services.foldl (addService label) apps).find? name =
      (services.filter fun s => appOf label s == some name).foldl (fun members s =>
        some { members.getD {} with services := (members.getD {}).services ++ [s] })
        (apps.find? name) :=
  NameMap.find?_foldl_filed (fun _ _ => rfl) services apps name

theorem find?_foldl_addWorkload (workloads : List Workload) (apps : NameMap AppMembers) :
    (workloads.foldl (addWorkload label) apps).find? name =
      (workloads.filter fun w => w.labels.find? label == some name).foldl (fun members w =>
        some { members.getD {} with workloads := (members.getD {}).workloads ++ [w] })
        (apps.find? name) :=
  NameMap.find?_foldl_filed (fun _ _ => rfl) workloads apps name

theorem find?_group_filtered (only : Option String) (services : List Service)
    (workloads : List Workload) :
    (group label only services workloads).find? name =
      ofLists? ((services.filter fun s => only.all fun app => appOf label s == some app).filter
          fun s => appOf label s == some name)
        (workloads.filter fun w => w.labels.find? label == some name) := by
  have hnone : (∅ : NameMap AppMembers).find? name = ofLists? [] [] := rfl
  unfold group
  dsimp only
  rw [find?_foldl_addWorkload, find?_foldl_addService, hnone, foldl_services, foldl_workloads,
    List.nil_append, List.nil_append]

/-- Under the name of an app are the services and the workloads of that app, unless there are
neither or another app was asked for. -/
theorem find?_group {only : Option String} (honly : only.all (· == name) = true)
    (services : List Service) (workloads : List Workload) :
    (group label only services workloads).find? name =
      ofLists? (services.filter fun s => appOf label s == some name)
        (workloads.filter fun w => w.labels.find? label == some name) := by
  have hservices : ((services.filter fun s => only.all fun app => appOf label s == some app).filter
      fun s => appOf label s == some name) =
        services.filter fun s => appOf label s == some name := by
    rw [List.filter_filter]
    refine List.filter_congr fun s _ => ?_
    cases only with
    | none => simp
    | some app =>
      obtain rfl : app = name := by simpa using honly
      simp
  rw [find?_group_filtered, hservices]

end AppMembers

end WorkloadMap
