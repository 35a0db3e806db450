import Mathlib.Data.List.Sort
import WorkloadMap.NameMap

/-!
Lists and maps in ascending order of names. Main statement: such a list is told by its members, and
such a map by its look-ups.
-/
namespace WorkloadMap

theorem eq_of_ascending_of_mem_iff {α : Type} {name : α → String} {as bs : List α}
    (has : as.Pairwise fun a b => name a < name b) (hbs : bs.Pairwise fun a b => name a < name b)
    (h : ∀ a, a ∈ as ↔ a ∈ bs) : as = bs := by
  have : Std.Irrefl fun a b : α => name a < name b := ⟨fun a => String.lt_irrefl (name a)⟩
  have : Std.Antisymm fun a b : α => name a < name b :=
    ⟨fun a b hab hba => absurd (String.lt_trans hab hba) (String.lt_irrefl (name a))⟩
  exact has.eq_of_mem_iff hbs h

theorem NameMap.ext_find? {α : Type} {m n : NameMap α} (h : ∀ name, m.find? name = n.find? name) :
    m = n := by
  refine NameMap.entries_injective (eq_of_ascending_of_mem_iff m.ascending n.ascending ?_)
  rintro ⟨name, a⟩
  rw [NameMap.mem_entries_iff, NameMap.mem_entries_iff, h]

/-- An entry is kept under its name, or not at all. -/
theorem NameMap.find?_filterMap {α β : Type} {f : String → α → Option β} {m : NameMap α}
    {name : String} : (m.filterMap f).find? name = (m.find? name).bind (f name) := by
  refine Option.ext fun b => ?_
  rw [← NameMap.mem_entries_iff, Option.bind_eq_some_iff]
  simp only [← NameMap.mem_entries_iff, NameMap.filterMap, List.mem_filterMap,
    Option.map_eq_some_iff]
  constructor
  · rintro ⟨⟨_, a⟩, hmem, _, hb, heq⟩
    cases heq
    exact ⟨a, hmem, hb⟩
  · rintro ⟨a, hmem, hb⟩
    exact ⟨(name, a), hmem, b, hb, rfl⟩

theorem NameMap.find?_map {α β : Type} {f : α → β} {m : NameMap α} {name : String} :
    (m.map f).find? name = (m.find? name).map f := by
  refine Option.ext fun b => ?_
  rw [← NameMap.mem_entries_iff, Option.map_eq_some_iff]
  simp only [← NameMap.mem_entries_iff, NameMap.map, List.mem_map, Prod.exists, Prod.mk.injEq]
  constructor
  · rintro ⟨_, a, hmem, rfl, hb⟩
    exact ⟨a, hmem, hb⟩
  · rintro ⟨a, hmem, hb⟩
    exact ⟨name, a, hmem, rfl, hb⟩

/-- At most one entry has a name. -/
theorem NameMap.filter_entries {α : Type} (m : NameMap α) (name : String) :
    (m.entries.filter fun e => e.1 == name) = ((m.find? name).map (name, ·)).toList := by
  refine eq_of_ascending_of_mem_iff (m.ascending.filter _) ?_ fun e => ?_
  · cases m.find? name <;> simp
  · rw [List.mem_filter, beq_iff_eq, Option.mem_toList, Option.map_eq_some_iff]
    constructor
    · rintro ⟨hmem, rfl⟩
      exact ⟨e.2, NameMap.mem_entries_iff.1 hmem, rfl⟩
    · rintro ⟨a, hfound, rfl⟩
      exact ⟨NameMap.mem_entries_iff.2 hfound, rfl⟩

/-- Of several entries under one name the last is found. -/
theorem NameMap.find?_ofList {α : Type} (es : List (String × α)) (name : String) :
    (NameMap.ofList es).find? name = (es.reverse.find? fun e => e.1 == name).map (·.2) := by
  have hfold : ∀ m : NameMap α, (es.foldl (fun m e => m.insert e.1 e.2) m).find? name =
      ((es.reverse.find? fun e => e.1 == name).map (·.2)).or (m.find? name) := by
    induction es with
    | nil => simp
    | cons e es ih =>
      intro m
      rw [List.foldl_cons, ih, find?_insert, List.reverse_cons, List.find?_append]
      by_cases hname : name = e.1
      · subst hname
        cases es.reverse.find? fun e' => e'.1 == e.1 <;> simp
      · have hother : (e.1 == name) = false := beq_eq_false_iff_ne.2 (Ne.symm hname)
        cases es.reverse.find? fun e' => e'.1 == name <;> simp [hname, hother]
  rw [ofList, hfold]
  simp

theorem NameSet.ofList_toList (s : NameSet) : NameSet.ofList s.toList = s := by
  refine NameMap.ext_find? fun name => ?_
  have hmem : name ∈ (NameSet.ofList s.toList).keys ↔ name ∈ s.keys := NameSet.mem_toList_ofList
  rw [NameMap.mem_keys_iff, NameMap.mem_keys_iff] at hmem
  -- There is but one value, so a look-up says no more than whether the name is there.
  cases hfound : s.find? name with
  | none => simpa [hfound] using hmem
  | some _ =>
    obtain ⟨_, hread⟩ := Option.isSome_iff_exists.1 (hmem.2 (by rw [hfound]; rfl))
    exact hread

theorem NameSet.ascending_toList (s : NameSet) : s.toList.Pairwise (· < ·) :=
  List.pairwise_map.2 s.ascending

theorem NameSet.ext_toList {s t : NameSet} (h : ∀ name, name ∈ s.toList ↔ name ∈ t.toList) :
    s = t := by
  have hlist : s.toList = t.toList :=
    eq_of_ascending_of_mem_iff s.ascending_toList t.ascending_toList h
  rw [← NameSet.ofList_toList s, hlist, NameSet.ofList_toList]

end WorkloadMap
