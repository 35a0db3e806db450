import WorkloadMap.Proofs.App.Group
import WorkloadMap.Proofs.NameMap
import WorkloadMap.Proofs.Text.Bytes

/-!
The labels of an app. Each value is added to the set of its key, and a set does not tell in which
order or how often its members came. Main statement: a key has all its values in ascending order,
and the labels of an app depend on nothing but which labels its services and workloads carry.
-/
namespace WorkloadMap

namespace JoinedLabels

variable {maps maps' : List Labels} {joined : JoinedLabels} {labels : Labels} {key value : String}

def joinAll (maps : List Labels) : JoinedLabels := maps.foldl join ∅

/-- What a key has in each of the maps that have it. -/
def valuesOf (key : String) (maps : List Labels) : List String := maps.filterMap (·.find? key)

theorem mem_valuesOf_iff :
    value ∈ valuesOf key maps ↔ ∃ labels ∈ maps, labels.find? key = some value :=
  List.mem_filterMap

/-- Among the values of a key, which may have none yet. -/
def addTo (held : Option NameSet) (value : String) : Option NameSet :=
  some (NameSet.add (held.getD ∅) value)

/-- A map has at most one value to be added under a key. -/
theorem find?_join (joined : JoinedLabels) (labels : Labels) (key : String) :
    (joined.join labels).find? key =
      (labels.find? key).toList.foldl addTo (joined.find? key) := by
  let put (e : String × String) (held : Option NameSet) := NameSet.add (held.getD ∅) e.2
  have hfiled := @NameMap.find?_foldl_filed (String × String) NameSet
    (fun m e => m.update e.1 (put e)) (fun e => some e.1) put (fun _ _ => rfl) labels.entries
    joined key
  have hentries : (labels.entries.filter fun e => some e.1 == some key) =
      ((labels.find? key).map (key, ·)).toList := labels.filter_entries key
  rw [hentries] at hfiled
  refine hfiled.trans ?_
  cases labels.find? key <;> rfl

theorem find?_foldl_join (maps : List Labels) (joined : JoinedLabels) (key : String) :
    (maps.foldl join joined).find? key = (valuesOf key maps).foldl addTo (joined.find? key) := by
  induction maps generalizing joined with
  | nil => rfl
  | cons labels maps ih =>
    have hvalues : valuesOf key (labels :: maps) =
        (labels.find? key).toList ++ valuesOf key maps := by
      unfold valuesOf
      rw [List.filterMap_cons]
      cases labels.find? key <;> rfl
    rw [List.foldl_cons, ih, find?_join, hvalues, List.foldl_append]

theorem foldl_addTo (values : List String) (held : NameSet) :
    values.foldl addTo (some held) = some (values.foldl NameSet.add held) := by
  induction values generalizing held with
  | nil => rfl
  | cons value values ih => exact ih (NameSet.add held value)

theorem find?_joinAll (maps : List Labels) (key : String) : (joinAll maps).find? key =
    if valuesOf key maps = [] then none else some (NameSet.ofList (valuesOf key maps)) := by
  unfold joinAll
  rw [find?_foldl_join]
  cases valuesOf key maps with
  | nil => rfl
  | cons value values => exact foldl_addTo values (NameSet.add ∅ value)

/-- What is joined is told by the labels that are in any of the maps. -/
theorem joinAll_congr
    (h : ∀ key value, (∃ labels ∈ maps, labels.find? key = some value) ↔
      ∃ labels ∈ maps', labels.find? key = some value) : joinAll maps = joinAll maps' := by
  refine NameMap.ext_find? fun key => ?_
  have hvalues : ∀ value, value ∈ valuesOf key maps ↔ value ∈ valuesOf key maps' := fun value => by
    rw [mem_valuesOf_iff, mem_valuesOf_iff, h]
  have hnil : valuesOf key maps = [] ↔ valuesOf key maps' = [] := by
    rw [List.eq_nil_iff_forall_not_mem, List.eq_nil_iff_forall_not_mem]
    exact forall_congr' fun value => not_congr (hvalues value)
  have hset : NameSet.ofList (valuesOf key maps) = NameSet.ofList (valuesOf key maps') :=
    NameSet.ext_toList fun value => by
      rw [NameSet.mem_toList_ofList, NameSet.mem_toList_ofList, hvalues]
  rw [find?_joinAll, find?_joinAll, hset]
  exact if_congr hnil rfl rfl

/-- Each value that a key has in any of the maps, once and in ascending order of its bytes. -/
structure AreValues (maps : List Labels) (key : String) (values : List String) : Prop where
  ascending : values.Pairwise fun a b => Text.bytes a < Text.bytes b
  mem_iff : ∀ value, value ∈ values ↔ ∃ labels ∈ maps, labels.find? key = some value

theorem AreValues.unique {values others : List String} (h : AreValues maps key values)
    (h' : AreValues maps key others) : others = values :=
  eq_of_ascending_of_mem_iff (h'.ascending.imp Text.bytes_lt_iff.1)
    (h.ascending.imp Text.bytes_lt_iff.1) fun value => (h'.mem_iff value).trans (h.mem_iff value).symm

theorem areValues_ofList (maps : List Labels) (key : String) :
    AreValues maps key (NameSet.ofList (valuesOf key maps)).toList where
  ascending := (NameSet.ascending_toList _).imp Text.bytes_lt_iff.2
  mem_iff value := by rw [NameSet.mem_toList_ofList, mem_valuesOf_iff]

theorem find?_toLabels_joinAll {values : List String} (h : AreValues maps key values) :
    (joinAll maps).toLabels.find? key =
      if values = [] then none else some (",".intercalate values) := by
  obtain rfl := (areValues_ofList maps key).unique h
  unfold toLabels
  rw [NameMap.find?_map, find?_joinAll]
  cases hvalues : valuesOf key maps with
  | nil => rfl
  | cons value others =>
    have hne : (NameSet.ofList (value :: others)).toList ≠ [] :=
      List.ne_nil_of_mem (NameSet.mem_toList_ofList.2 List.mem_cons_self)
    rw [if_neg (List.cons_ne_nil value others), if_neg hne]
    rfl

end JoinedLabels

namespace AppMembers

/-- The labels of each service and of each workload. -/
def carried (members : AppMembers) : List Labels :=
  members.services.map (·.metadata.labels) ++ members.workloads.map (·.labels)

theorem labels_eq (members : AppMembers) :
    members.labels = (JoinedLabels.joinAll members.carried).toLabels := by
  unfold labels carried JoinedLabels.joinAll
  rw [List.foldl_append, List.foldl_map, List.foldl_map]

end AppMembers

namespace AppItem

/-- A key that is on none of the joined maps has no entry, and any other has its values in ascending
order with commas between them. Neither the order of the maps nor how often one of them comes makes
a difference, and so neither does how many services and workloads of an app carry them. -/
theorem labels_union :
    (∀ (maps : List Labels) (key : String), ∃ values : List String,
      (∀ others, JoinedLabels.AreValues maps key others ↔ others = values) ∧
      (JoinedLabels.joinAll maps).toLabels.find? key =
        if values = [] then none else some (",".intercalate values)) ∧
    (∀ maps maps' : List Labels, (∀ labels, labels ∈ maps ↔ labels ∈ maps') →
      (JoinedLabels.joinAll maps).toLabels = (JoinedLabels.joinAll maps').toLabels) ∧
    ∀ (routing selecting : List IstioObject) (name : String) (members : AppMembers),
      (ofMembers routing selecting name members).labels =
        (JoinedLabels.joinAll members.carried).toLabels ∧
      ∀ others : AppMembers, (∀ labels, labels ∈ others.carried ↔ labels ∈ members.carried) →
        (ofMembers routing selecting name others).labels =
          (ofMembers routing selecting name members).labels := by
  have hcongr : ∀ maps maps' : List Labels, (∀ labels, labels ∈ maps ↔ labels ∈ maps') →
      (JoinedLabels.joinAll maps).toLabels = (JoinedLabels.joinAll maps').toLabels :=
    fun maps maps' h => by
      rw [JoinedLabels.joinAll_congr fun key value =>
        exists_congr fun labels => and_congr_left' (h labels)]
  refine ⟨fun maps key => ?_, hcongr, fun routing selecting name members =>
    ⟨members.labels_eq, fun others h => ?_⟩⟩
  · have hvalues := JoinedLabels.areValues_ofList maps key
    refine ⟨_, fun others => ⟨hvalues.unique, ?_⟩, JoinedLabels.find?_toLabels_joinAll hvalues⟩
    rintro rfl
    exact hvalues
  · exact others.labels_eq.trans ((hcongr _ _ h).trans members.labels_eq.symm)

/-- One version of an app. -/
def reviews (version : String) : Workload where
  name := "reviews-" ++ version
  kind := .controller .deployment
  labels := .ofList [("app", "reviews"), ("version", version)]

theorem reviews_labels_union :
    (∀ labels, labels ∈ ({ workloads := [reviews "v1", reviews "v2", reviews "v1"] } :
        AppMembers).carried ↔
      labels ∈ ({ workloads := [reviews "v2", reviews "v1"] } : AppMembers).carried) ∧
    (ofMembers [] [] "reviews"
        { workloads := [reviews "v1", reviews "v2", reviews "v1"] }).labels =
      (ofMembers [] [] "reviews" { workloads := [reviews "v2", reviews "v1"] }).labels ∧
    (JoinedLabels.joinAll [(reviews "v1").labels, (reviews "v2").labels]).toLabels =
      (JoinedLabels.joinAll [(reviews "v2").labels, (reviews "v1").labels,
        (reviews "v2").labels]).toLabels ∧
    (ofMembers [] [] "reviews" { workloads := [reviews "v2", reviews "v1"] }).labels =
      .ofList [("app", "reviews"), ("version", "v1,v2")] := by
  have hcarried : ∀ labels, labels ∈ ({ workloads := [reviews "v1", reviews "v2", reviews "v1"] } :
      AppMembers).carried ↔
      labels ∈ ({ workloads := [reviews "v2", reviews "v1"] } : AppMembers).carried := by
    simp only [AppMembers.carried, List.map_cons, List.map_nil, List.nil_append, List.mem_cons,
      List.not_mem_nil, or_false]
    grind
  refine ⟨hcarried, (labels_union.2.2 [] [] "reviews" _).2 _ hcarried,
    labels_union.2.1 _ _ fun labels => ?_, by decide +kernel⟩
  simp only [List.mem_cons, List.not_mem_nil, or_false]
  grind

end AppItem

end WorkloadMap
