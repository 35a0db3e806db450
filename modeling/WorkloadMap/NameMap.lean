/-!
Finite maps from names. A map is its list of entries in strictly ascending order of names, so two
maps with the same look-ups are equal and a listing needs no sorting.
-/
namespace WorkloadMap

/-- Strings are ordered by code points, which is the order of their UTF-8 bytes. -/
structure NameMap (α : Type u) where
  entries : List (String × α)
  ascending : entries.Pairwise (fun a b => a.1 < b.1)
deriving DecidableEq

namespace NameMap

variable {α : Type u} {β : Type v}

def empty : NameMap α := ⟨[], .nil⟩

instance : EmptyCollection (NameMap α) := ⟨empty⟩
instance : Inhabited (NameMap α) := ⟨empty⟩

def isEmpty (m : NameMap α) : Bool := m.entries.isEmpty

def size (m : NameMap α) : Nat := m.entries.length

def keys (m : NameMap α) : List String := m.entries.map (·.1)

def values (m : NameMap α) : List α := m.entries.map (·.2)

def find? (m : NameMap α) (k : String) : Option α := m.entries.lookup k

def contains (m : NameMap α) (k : String) : Bool := (m.find? k).isSome

/-- Write at one name, given what is there. -/
private def writeEntry (k : String) (f : Option α → α) : List (String × α) → List (String × α)
  | [] => [(k, f none)]
  | e :: rest =>
    if k < e.1 then (k, f none) :: e :: rest
    else if e.1 < k then e :: writeEntry k f rest
    else (k, f (some e.2)) :: rest

private theorem eq_of_not_lt {a b : String} (h : ¬a < b) (h' : ¬b < a) : a = b :=
  String.le_antisymm (String.not_lt.1 h') (String.not_lt.1 h)

private theorem fst_mem_writeEntry {k : String} {f : Option α → α} {es : List (String × α)}
    {e : String × α} (h : e ∈ writeEntry k f es) : e.1 = k ∨ ∃ e' ∈ es, e'.1 = e.1 := by
  induction es with
  | nil => simp_all [writeEntry]
  | cons e' rest ih =>
    simp only [writeEntry] at h
    split at h
    · simp only [List.mem_cons] at h
      rcases h with rfl | rfl | h
      · exact .inl rfl
      · exact .inr ⟨e, by simp, rfl⟩
      · exact .inr ⟨e, by simp [h], rfl⟩
    · split at h
      · simp only [List.mem_cons] at h
        rcases h with rfl | h
        · exact .inr ⟨e, by simp, rfl⟩
        · rcases ih h with h | ⟨d, hd, he⟩
          · exact .inl h
          · exact .inr ⟨d, by simp [hd], he⟩
      · simp only [List.mem_cons] at h
        rcases h with rfl | h
        · exact .inl rfl
        · exact .inr ⟨e, by simp [h], rfl⟩

private theorem ascending_writeEntry (k : String) (f : Option α → α) {es : List (String × α)}
    (h : es.Pairwise (fun a b => a.1 < b.1)) :
    (writeEntry k f es).Pairwise (fun a b => a.1 < b.1) := by
  induction es with
  | nil => simp [writeEntry]
  | cons e rest ih =>
    obtain ⟨hhead, htail⟩ := List.pairwise_cons.1 h
    simp only [writeEntry]
    split
    next hlt =>
      refine List.pairwise_cons.2 ⟨fun d hd => ?_, h⟩
      rcases List.mem_cons.1 hd with rfl | hd
      · exact hlt
      · exact String.lt_trans hlt (hhead d hd)
    next hnlt =>
      split
      next hgt =>
        refine List.pairwise_cons.2 ⟨fun d hd => ?_, ih htail⟩
        rcases fst_mem_writeEntry hd with hk | ⟨d', hd', he⟩
        · rw [hk]; exact hgt
        · rw [← he]; exact hhead d' hd'
      next hngt =>
        have hk : k = e.1 := eq_of_not_lt hnlt hngt
        exact List.pairwise_cons.2 ⟨fun d hd => hk ▸ hhead d hd, htail⟩

/-- Every other write is an instance of this one. -/
def update (m : NameMap α) (k : String) (f : Option α → α) : NameMap α :=
  ⟨writeEntry k f m.entries, ascending_writeEntry k f m.ascending⟩

def insert (m : NameMap α) (k : String) (v : α) : NameMap α :=
  m.update k fun _ => v

/-- An entry that is already there stays. -/
def insertIfAbsent (m : NameMap α) (k : String) (v : α) : NameMap α :=
  m.update k fun held => held.getD v

def erase (m : NameMap α) (k : String) : NameMap α :=
  ⟨m.entries.filter (·.1 ≠ k), m.ascending.filter _⟩

def filterMap (f : String → α → Option β) (m : NameMap α) : NameMap β :=
  ⟨m.entries.filterMap fun e => (f e.1 e.2).map (e.1, ·), by
    refine List.Pairwise.filterMap _ (fun a a' h b hb b' hb' => ?_) m.ascending
    obtain ⟨_, _, rfl⟩ := Option.map_eq_some_iff.1 hb
    obtain ⟨_, _, rfl⟩ := Option.map_eq_some_iff.1 hb'
    exact h⟩

def map (f : α → β) (m : NameMap α) : NameMap β :=
  ⟨m.entries.map fun e => (e.1, f e.2), m.ascending.map _ fun _ _ h => h⟩

/-- The last entry of a name wins. -/
def ofList (es : List (String × α)) : NameMap α :=
  es.foldl (fun m e => m.insert e.1 e.2) ∅

theorem entries_injective {m n : NameMap α} (h : m.entries = n.entries) : m = n := by
  cases m; cases n; cases h; rfl

private theorem lookup_cons (k : String) (e : String × α) (es : List (String × α)) :
    (e :: es).lookup k = match k == e.1 with
      | true => some e.2
      | false => es.lookup k := rfl

private theorem lookup_eq_none_of_lt {k : String} {es : List (String × α)}
    (h : ∀ e ∈ es, k < e.1) : es.lookup k = none := by
  induction es with
  | nil => rfl
  | cons e rest ih =>
    have hne : (k == e.1) = false := by
      have := h e (by simp)
      simp only [beq_eq_false_iff_ne, ne_eq]
      rintro rfl
      exact String.lt_irrefl _ this
    simp only [lookup_cons, hne]
    exact ih fun d hd => h d (by simp [hd])

private theorem lookup_writeEntry_self (k : String) (f : Option α → α) {es : List (String × α)}
    (h : es.Pairwise (fun a b => a.1 < b.1)) :
    (writeEntry k f es).lookup k = some (f (es.lookup k)) := by
  induction es with
  | nil => simp [writeEntry]
  | cons e rest ih =>
    obtain ⟨hhead, htail⟩ := List.pairwise_cons.1 h
    simp only [writeEntry]
    split
    next hlt =>
      have hnone : (e :: rest).lookup k = none := by
        refine lookup_eq_none_of_lt fun d hd => ?_
        rcases List.mem_cons.1 hd with rfl | hd
        · exact hlt
        · exact String.lt_trans hlt (hhead d hd)
      rw [hnone]
      simp
    next hnlt =>
      split
      next hgt =>
        have hne : (k == e.1) = false := by
          simp only [beq_eq_false_iff_ne, ne_eq]
          rintro rfl
          exact String.lt_irrefl _ hgt
        simp only [lookup_cons, hne]
        exact ih htail
      next hngt =>
        have hk : k = e.1 := eq_of_not_lt hnlt hngt
        subst hk
        simp [lookup_cons]

private theorem lookup_writeEntry_of_ne {k k' : String} (f : Option α → α) (hk : k' ≠ k)
    (es : List (String × α)) : (writeEntry k f es).lookup k' = es.lookup k' := by
  have hne : (k' == k) = false := by simpa using hk
  induction es with
  | nil => simp [writeEntry, lookup_cons, hne]
  | cons e rest ih =>
    simp only [writeEntry]
    split
    · simp [lookup_cons, hne]
    · split
      · simp only [lookup_cons]
        split <;> simp_all
      next hnlt hngt =>
        have he : k = e.1 := eq_of_not_lt hnlt hngt
        subst he
        simp [lookup_cons, hne]

@[simp] theorem find?_empty (k : String) : (∅ : NameMap α).find? k = none := rfl

@[simp] theorem find?_update_self (m : NameMap α) (k : String) (f : Option α → α) :
    (m.update k f).find? k = some (f (m.find? k)) :=
  lookup_writeEntry_self k f m.ascending

theorem find?_update_of_ne (m : NameMap α) {k k' : String} (f : Option α → α) (h : k' ≠ k) :
    (m.update k f).find? k' = m.find? k' :=
  lookup_writeEntry_of_ne f h m.entries

theorem find?_update (m : NameMap α) (k k' : String) (f : Option α → α) :
    (m.update k f).find? k' = if k' = k then some (f (m.find? k)) else m.find? k' := by
  split
  next h => subst h; simp
  next h => exact m.find?_update_of_ne f h

private theorem lookup_filter_ne (k k' : String) (es : List (String × α)) :
    (es.filter (·.1 ≠ k)).lookup k' = if k' = k then none else es.lookup k' := by
  induction es with
  | nil => simp
  | cons e rest ih =>
    by_cases he : e.1 = k
    · rw [List.filter_cons_of_neg (by simp [he]), ih]
      split
      · rfl
      next hk =>
        have hne : (k' == e.1) = false := by simp [he, hk]
        simp [lookup_cons, hne]
    · rw [List.filter_cons_of_pos (by simp [he])]
      simp only [lookup_cons, ih]
      split
      next heq =>
        have : k' = e.1 := by simpa using heq
        subst this
        simp [he]
      · rfl

theorem find?_erase (m : NameMap α) (k k' : String) :
    (m.erase k).find? k' = if k' = k then none else m.find? k' :=
  lookup_filter_ne k k' m.entries

theorem find?_insert (m : NameMap α) (k k' : String) (v : α) :
    (m.insert k v).find? k' = if k' = k then some v else m.find? k' :=
  m.find?_update k k' _

theorem find?_insertIfAbsent (m : NameMap α) (k k' : String) (v : α) :
    (m.insertIfAbsent k v).find? k' = if k' = k then some ((m.find? k).getD v) else m.find? k' :=
  m.find?_update k k' _

/-- Of several entries under one name the first stays, unless there is one already. -/
theorem find?_foldl_insertIfAbsent (es : List (String × α)) (m : NameMap α) (k : String) :
    (es.foldl (fun m (k, v) => m.insertIfAbsent k v) m).find? k = (m.find? k).or (es.lookup k) := by
  induction es generalizing m with
  | nil => simp
  | cons e rest ih =>
    rw [List.foldl_cons, ih, find?_insertIfAbsent, lookup_cons]
    by_cases hk : k = e.1
    · subst hk
      cases m.find? e.1 <;> simp
    · rw [if_neg hk, beq_eq_false_iff_ne.2 hk]

theorem find?_foldl_erase (ks : List String) (m : NameMap α) (k : String) :
    (ks.foldl erase m).find? k = if k ∈ ks then none else m.find? k := by
  induction ks generalizing m with
  | nil => simp
  | cons k' rest ih =>
    rw [List.foldl_cons, ih, find?_erase]
    by_cases hk : k = k' <;> simp [hk]

theorem mem_entries_iff {m : NameMap α} {k : String} {v : α} :
    (k, v) ∈ m.entries ↔ m.find? k = some v := by
  obtain ⟨es, h⟩ := m
  simp only [find?]
  induction es with
  | nil => simp
  | cons e rest ih =>
    obtain ⟨hhead, htail⟩ := List.pairwise_cons.1 h
    simp only [List.mem_cons, lookup_cons]
    split
    next heq =>
      have hk : k = e.1 := by simpa using heq
      subst hk
      constructor
      · rintro (he | hm)
        · rw [← he]
        · exact absurd (hhead _ hm) (String.lt_irrefl _)
      · intro hv
        exact .inl (by cases e; simp_all)
    next hne =>
      have hk : k ≠ e.1 := by simpa using hne
      rw [ih htail]
      constructor
      · rintro (rfl | hm)
        · exact absurd rfl hk
        · exact hm
      · exact .inr

theorem mem_keys_iff {m : NameMap α} {k : String} : k ∈ m.keys ↔ (m.find? k).isSome := by
  simp only [keys, List.mem_map, Prod.exists, exists_and_right, exists_eq_right, mem_entries_iff,
    Option.isSome_iff_exists]

end NameMap

/-- A finite set of strings, listed in ascending order. -/
abbrev NameSet := NameMap Unit

namespace NameSet

def add (s : NameSet) (x : String) : NameSet := s.insert x ()

def ofList (xs : List String) : NameSet := xs.foldl add ∅

def toList (s : NameSet) : List String := s.keys

theorem mem_toList_add {s : NameSet} {x y : String} :
    y ∈ (s.add x).toList ↔ y = x ∨ y ∈ s.toList := by
  simp only [toList, NameMap.mem_keys_iff, add, NameMap.find?_insert]
  split <;> simp_all

@[simp] theorem mem_toList_ofList {xs : List String} {x : String} :
    x ∈ (ofList xs).toList ↔ x ∈ xs := by
  have hfold : ∀ s : NameSet, x ∈ (xs.foldl add s).toList ↔ x ∈ s.toList ∨ x ∈ xs := by
    induction xs with
    | nil => simp
    | cons y ys ih =>
      intro s
      rw [List.foldl_cons, ih, mem_toList_add, List.mem_cons, or_assoc, or_left_comm]
  have hempty : x ∉ (∅ : NameSet).toList := by simp [toList, NameMap.mem_keys_iff]
  simp [ofList, hfold, hempty]

end NameSet

end WorkloadMap
