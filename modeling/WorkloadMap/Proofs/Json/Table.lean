import WorkloadMap.Proofs.Json.Record
import WorkloadMap.Proofs.NameMap

/-!
Objects read as tables. Main statement: a table of texts is what the members of an object say, where
each of them is a text.
-/
namespace WorkloadMap.Json

variable {v : Json} {name : String}

/-- The table of an object holds what is found by name. -/
theorem find?_of_table? {table : NameMap Json} (h : v.table? = some table) :
    table.find? name = v.get? name := by
  obtain ⟨ms, hms, rfl⟩ := Option.map_eq_some_iff.1 h
  obtain rfl := members?_eq_some_iff.1 hms
  rw [NameMap.find?_ofList, record, get?, ← List.map_reverse, List.find?_map]
  simp [Function.comp_def]

theorem forall_values_of_table? {table : NameMap Json} (h : v.table? = some table)
    {p : Json → Prop} : (∀ x ∈ table.values, p x) ↔ ∀ name x, v.get? name = some x → p x := by
  simp only [NameMap.values, List.forall_mem_map, Prod.forall, NameMap.mem_entries_iff,
    find?_of_table? h]

theorem find?_filterMap_text? {table : NameMap Json} (h : v.table? = some table) {t : String} :
    (table.filterMap fun _ x => x.text?).find? name = some t ↔ v.get? name = some (.text t) := by
  rw [NameMap.find?_filterMap, find?_of_table? h]
  simp [Option.bind_eq_some_iff, text?_eq_some_iff]

theorem texts?_eq_some_iff_exists {texts : NameMap String} : v.texts? = some texts ↔
    ∃ table, v.table? = some table ∧ (∀ x ∈ table.values, ∃ t, x = .text t) ∧
      table.filterMap (fun _ x => x.text?) = texts := by
  simp [texts?, Option.bind_eq_some_iff, Option.guard_eq_some', Option.isSome_iff_exists,
    text?_eq_some_iff]

theorem exists_texts? {ms : Members} (h : v.members? = some ms)
    (htexts : ∀ name x, v.get? name = some x → ∃ t, x = .text t) :
    ∃ texts, v.texts? = some texts := by
  have htable : v.table? = some (.ofList ms) := by rw [table?, h]; rfl
  exact ⟨_, texts?_eq_some_iff_exists.2 ⟨_, htable, (forall_values_of_table? htable).2 htexts, rfl⟩⟩

/-- Nothing but texts may stand in a table of texts, and it holds all of them. -/
theorem texts?_eq_some_iff {texts : NameMap String} : v.texts? = some texts ↔
    (∃ ms, v.members? = some ms) ∧ (∀ name x, v.get? name = some x → ∃ t, x = .text t) ∧
      ∀ name t, texts.find? name = some t ↔ v.get? name = some (.text t) := by
  constructor
  · intro h
    obtain ⟨table, htable, htexts, rfl⟩ := texts?_eq_some_iff_exists.1 h
    obtain ⟨ms, hms, -⟩ := Option.map_eq_some_iff.1 htable
    exact ⟨⟨ms, hms⟩, (forall_values_of_table? htable).1 htexts,
      fun name t => find?_filterMap_text? htable⟩
  · rintro ⟨⟨ms, hms⟩, htexts, hfind⟩
    obtain ⟨read, hread⟩ := exists_texts? hms htexts
    obtain ⟨table, htable, -, rfl⟩ := texts?_eq_some_iff_exists.1 hread
    rw [hread, Option.some.injEq]
    exact NameMap.ext_find? fun name => Option.ext fun t =>
      (find?_filterMap_text? htable).trans (hfind name t).symm

end WorkloadMap.Json
