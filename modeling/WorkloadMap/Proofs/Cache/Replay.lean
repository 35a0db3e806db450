import Mathlib.Data.List.Perm.Subperm
import WorkloadMap.Cache.Basic
import WorkloadMap.Proofs.Text.Bytes

/-!
A cache beside a plain replay of its writes. A write is a sequence of changes, each to what is at
one key: of a kind, in a namespace, under a name. Main statement: the cache lists what the last
change at each key left there, and serves a namespace once every kind was listed in full.
-/
namespace WorkloadMap.Cache

/-- A change at one key. -/
inductive Change where
  | put (k : CachedKind) (item : k.Item)
  | drop (k : CachedKind) (ns name : String)

namespace Change

def key : Change → CachedKind × String × String
  | .put k item => (k, homeOf item, Object.anyName item)
  | .drop k ns name => (k, ns, name)

end Change

/-- The removals of a full listing come before its objects. -/
def Write.changes : Write → List Change
  | .apply k item => [.put k item]
  | .delete k ns name => [.drop k ns name]
  | .reset k items removed =>
    ((removals removed).map fun (ns, name) => .drop k ns name) ++ items.map (.put k)

def Write.ListsAll (w : Write) (k : CachedKind) : Prop :=
  ∃ items removed, w = .reset k items removed

/-- What a plain map holds by kind, namespace and name. -/
abbrev Replay := ByKind fun k => String → String → Option k.Item

namespace Replay

def empty : Replay := ⟨fun _ _ _ => none⟩

def set (m : Replay) (k : CachedKind) (ns name : String) (left : Option k.Item) : Replay :=
  m.update k fun held ns' name' => if ns' = ns ∧ name' = name then left else held ns' name'

def change (m : Replay) : Change → Replay
  | .put k item => m.set k (homeOf item) (Object.anyName item) (some item)
  | .drop k ns name => m.set k ns name none

def ofChanges (changes : List Change) : Replay := changes.foldl change empty

end Replay

def fed (patterns : List Pattern) (ws : List Write) : Cache := ws.foldl write { patterns }

/-- Whether the last change at a key put an object there. -/
def Leaves (changes : List Change) (k : CachedKind) (ns name : String) (item : k.Item) : Prop :=
  ∃ before after, changes = before ++ .put k item :: after ∧
    (Change.put k item).key = (k, ns, name) ∧ ∀ later ∈ after, later.key ≠ (k, ns, name)

variable {c : Cache} {k : CachedKind} {ns name : String} {patterns : List Pattern}
  {ws : List Write}

theorem leaves_cons {change : Change} {changes : List Change} {item : k.Item} :
    Leaves (change :: changes) k ns name item ↔
      (change = .put k item ∧ change.key = (k, ns, name) ∧
          ∀ later ∈ changes, later.key ≠ (k, ns, name)) ∨
        Leaves changes k ns name item := by
  constructor
  · rintro ⟨before, after, heq, hkey, hlater⟩
    cases before with
    | nil =>
      cases heq
      exact .inl ⟨rfl, hkey, hlater⟩
    | cons first before =>
      cases heq
      exact .inr ⟨before, after, rfl, hkey, hlater⟩
  · rintro (⟨rfl, hkey, hlater⟩ | ⟨before, after, rfl, hkey, hlater⟩)
    · exact ⟨[], changes, rfl, hkey, hlater⟩
    · exact ⟨change :: before, after, rfl, hkey, hlater⟩

namespace Replay

variable {m : Replay} {changes : List Change}

@[simp] theorem get_empty (k : CachedKind) (ns name : String) : empty.get k ns name = none := rfl

@[simp] theorem get_set_self (m : Replay) (k : CachedKind) (ns name : String)
    (left : Option k.Item) : (m.set k ns name left).get k ns name = left := by
  simp [set]

theorem get_set_of_ne (m : Replay) {k j : CachedKind} {ns ns' name name' : String}
    (left : Option k.Item) (h : (k, ns, name) ≠ (j, ns', name')) :
    (m.set k ns name left).get j ns' name' = m.get j ns' name' := by
  by_cases hk : j = k
  · subst hk
    have hne : ¬(ns' = ns ∧ name' = name) := by
      rintro ⟨rfl, rfl⟩
      exact h rfl
    simp [set, hne]
  · simp only [set, ByKind.get_update_of_ne m _ hk]

theorem get_change_of_ne {change : Change} (h : change.key ≠ (k, ns, name)) :
    (m.change change).get k ns name = m.get k ns name := by
  cases change with
  | put => exact m.get_set_of_ne _ h
  | drop => exact m.get_set_of_ne _ h

theorem get_change_eq_some_iff {change : Change} {item : k.Item} :
    (m.change change).get k ns name = some item ↔
      (change = .put k item ∧ change.key = (k, ns, name)) ∨
        (change.key ≠ (k, ns, name) ∧ m.get k ns name = some item) := by
  by_cases hkey : change.key = (k, ns, name)
  · cases change with
    | put k' item' =>
      cases hkey
      simp [Replay.change, Change.key]
    | drop k' ns' name' =>
      cases hkey
      simp [Replay.change, Change.key]
  · rw [get_change_of_ne hkey]
    simp [hkey]

theorem get_foldl_change_eq_some_iff {item : k.Item} :
    (changes.foldl change m).get k ns name = some item ↔
      Leaves changes k ns name item ∨
        (∀ change ∈ changes, change.key ≠ (k, ns, name)) ∧ m.get k ns name = some item := by
  induction changes generalizing m with
  | nil => simp [Leaves]
  | cons change changes ih =>
    rw [List.foldl_cons, ih, get_change_eq_some_iff, leaves_cons, List.forall_mem_cons]
    tauto

theorem get_ofChanges_eq_some_iff {item : k.Item} :
    (ofChanges changes).get k ns name = some item ↔ Leaves changes k ns name item := by
  simp [ofChanges, get_foldl_change_eq_some_iff]

end Replay

/-! What the cache holds. -/

def entries (c : Cache) : Replay := ⟨fun k ns name => (c.held k ns).find? name⟩

def change (c : Cache) : Change → Cache
  | .put k item => c.apply k item
  | .drop k ns name => c.delete k ns name

/-- What a change does to the objects of its kind in its namespace. -/
def Change.edit : (change : Change) → NameMap change.key.1.Item → NameMap change.key.1.Item
  | .put _ item, held => held.insert (Object.anyName item) item
  | .drop _ _ name, held => held.erase name

theorem update_none_erase (k : CachedKind) (name : String) :
    Contents.none.update k (·.erase name) = Contents.none := by
  apply ByKind.ext
  intro j
  by_cases hj : j = k
  · subst hj
    rw [ByKind.get_update_self]
    rfl
  · rw [ByKind.get_update_of_ne _ _ hj]

theorem contents_apply (c : Cache) (k : CachedKind) (item : k.Item) (ns : String) :
    (c.apply k item).contents ns = if ns = homeOf item
      then (c.contents ns).update k (·.insert (Object.anyName item) item) else c.contents ns := by
  unfold contents apply
  rw [NameMap.find?_update]
  split
  next hns => rw [hns]; rfl
  next => rfl

theorem contents_delete (c : Cache) (k : CachedKind) (ns' name ns : String) :
    (c.delete k ns' name).contents ns = if ns = ns'
      then (c.contents ns).update k (·.erase name) else c.contents ns := by
  unfold delete
  split
  next hunknown =>
    split
    next hns =>
      have hnone : c.contents ns = Contents.none := by simp [contents, hns, hunknown]
      rw [hnone, update_none_erase]
    next => rfl
  next held hheld =>
    unfold contents
    rw [NameMap.find?_insert]
    split
    next hns =>
      rw [hns, hheld]
      rfl
    next => rfl

theorem contents_change (c : Cache) (change : Change) (ns : String) :
    (c.change change).contents ns = if ns = change.key.2.1
      then (c.contents ns).update change.key.1 change.edit else c.contents ns := by
  cases change with
  | put k item => exact c.contents_apply k item ns
  | drop k ns' name => exact c.contents_delete k ns' name ns

theorem held_change_of_ne {change : Change} (h : ∀ name, change.key ≠ (k, ns, name)) :
    (c.change change).held k ns = c.held k ns := by
  unfold held
  rw [contents_change]
  split
  next hns =>
    refine ByKind.get_update_of_ne _ _ fun hk => h change.key.2.2 ?_
    rw [hk, hns]
  next => rfl

theorem held_change_self (c : Cache) (change : Change) :
    (c.change change).held change.key.1 change.key.2.1 =
      change.edit (c.held change.key.1 change.key.2.1) := by
  unfold held
  rw [contents_change, if_pos rfl, ByKind.get_update_self]

theorem entries_change (c : Cache) (change : Change) :
    (c.change change).entries = c.entries.change change := by
  apply ByKind.ext
  intro k
  funext ns name
  by_cases hplace : k = change.key.1 ∧ ns = change.key.2.1
  · obtain ⟨rfl, rfl⟩ := hplace
    simp only [entries, held_change_self]
    cases change with
    | put k item =>
      simp [Change.edit, Change.key, Replay.change, Replay.set, NameMap.find?_insert]
    | drop k ns name' =>
      simp [Change.edit, Change.key, Replay.change, Replay.set, NameMap.find?_erase]
  · have hother : ∀ name, change.key ≠ (k, ns, name) := fun name hkey => hplace (by simp [hkey])
    rw [Replay.get_change_of_ne (hother name)]
    exact congrArg (·.find? name) (held_change_of_ne hother)

/-! Whole runs. -/

theorem patterns_listed_foldl_change (c : Cache) (changes : List Change) :
    (changes.foldl change c).patterns = c.patterns ∧ (changes.foldl change c).listed = c.listed := by
  induction changes generalizing c with
  | nil => exact ⟨rfl, rfl⟩
  | cons first changes ih =>
    have hfirst : (c.change first).patterns = c.patterns ∧ (c.change first).listed = c.listed := by
      cases first with
      | put => exact ⟨rfl, rfl⟩
      | drop k ns name =>
        simp only [Cache.change, delete]
        split <;> exact ⟨rfl, rfl⟩
    rw [List.foldl_cons, (ih _).1, (ih _).2]
    exact hfirst

theorem reset_eq (c : Cache) (k : CachedKind) (items : List k.Item)
    (removed : NameMap (List String)) : c.reset k items removed =
      let full := (Write.reset k items removed).changes.foldl change c
      { full with listed := if k ∈ full.listed then full.listed else k :: full.listed } := by
  simp only [reset, Write.changes, List.foldl_append, List.foldl_map]
  rfl

/-- Beside its changes a write only notes which kinds were listed in full. -/
theorem write_eq (c : Cache) (w : Write) :
    ∃ listed, c.write w = { w.changes.foldl change c with listed } ∧
      ∀ k, k ∈ listed ↔ k ∈ c.listed ∨ w.ListsAll k := by
  cases w with
  | apply => exact ⟨c.listed, rfl, by simp [Write.ListsAll]⟩
  | delete k ns name =>
    have hlisted : (c.delete k ns name).listed = c.listed :=
      (patterns_listed_foldl_change c [.drop k ns name]).2
    refine ⟨(c.delete k ns name).listed, rfl, fun j => ?_⟩
    simp [hlisted, Write.ListsAll]
  | reset k items removed =>
    have hlisted := (patterns_listed_foldl_change c (Write.reset k items removed).changes).2
    refine ⟨_, c.reset_eq k items removed, fun j => ?_⟩
    have hlists : (Write.reset k items removed).ListsAll j ↔ j = k := by
      constructor
      · rintro ⟨_, _, heq⟩
        cases heq
        rfl
      · rintro rfl
        exact ⟨items, removed, rfl⟩
    rw [hlists, hlisted]
    split
    next hk =>
      refine ⟨.inl, ?_⟩
      rintro (hj | rfl)
      · exact hj
      · exact hk
    next => rw [List.mem_cons, or_comm]

theorem entries_foldl_change (c : Cache) (changes : List Change) :
    (changes.foldl change c).entries = changes.foldl Replay.change c.entries := by
  induction changes generalizing c with
  | nil => rfl
  | cons change changes ih => rw [List.foldl_cons, List.foldl_cons, ih, entries_change]

theorem entries_write (c : Cache) (w : Write) :
    (c.write w).entries = w.changes.foldl Replay.change c.entries := by
  obtain ⟨listed, hwrite, _⟩ := c.write_eq w
  rw [hwrite, ← entries_foldl_change]
  rfl

theorem entries_foldl_write (c : Cache) (ws : List Write) :
    (ws.foldl write c).entries = (ws.flatMap Write.changes).foldl Replay.change c.entries := by
  induction ws generalizing c with
  | nil => rfl
  | cons w ws ih => rw [List.foldl_cons, ih, entries_write, List.flatMap_cons, List.foldl_append]

theorem entries_fed (patterns : List Pattern) (ws : List Write) :
    (fed patterns ws).entries = .ofChanges (ws.flatMap Write.changes) :=
  entries_foldl_write _ ws

theorem listed_fed (patterns : List Pattern) (ws : List Write) (k : CachedKind) :
    k ∈ (fed patterns ws).listed ↔ ∃ w ∈ ws, w.ListsAll k := by
  have hfold : ∀ c : Cache, k ∈ (ws.foldl write c).listed ↔
      k ∈ c.listed ∨ ∃ w ∈ ws, w.ListsAll k := by
    induction ws with
    | nil => simp
    | cons w ws ih =>
      intro c
      obtain ⟨listed, hwrite, hlisted⟩ := c.write_eq w
      rw [List.foldl_cons, ih, hwrite, hlisted, List.exists_mem_cons_iff, or_assoc]
  simp [fed, hfold]

/-- Of kinds without repetition, those are all of them that are as many. -/
theorem length_eq_length_all_iff {ks : List CachedKind} (h : ks.Nodup) :
    ks.length = CachedKind.all.length ↔ ∀ k ∈ CachedKind.all, k ∈ ks := by
  have hsub : ks.Subperm CachedKind.all :=
    List.subperm_of_subset h fun k _ => CachedKind.mem_all k
  constructor
  · intro hlength k hk
    exact (hsub.perm_of_length_le hlength.ge).mem_iff.2 hk
  · intro hall
    exact le_antisymm hsub.length_le (List.subperm_of_subset (by decide) hall).length_le

theorem nodup_listed_write {c : Cache} (h : c.listed.Nodup) (w : Write) :
    (c.write w).listed.Nodup := by
  have hchanges := (patterns_listed_foldl_change c w.changes).2
  cases w with
  | apply => exact h
  | delete => exact hchanges ▸ h
  | reset k items removed =>
    rw [write, reset_eq]
    dsimp only
    rw [hchanges]
    split
    next => exact h
    next hnew => exact List.nodup_cons.2 ⟨hnew, h⟩

theorem nodup_listed_fed (patterns : List Pattern) (ws : List Write) :
    (fed patterns ws).listed.Nodup := by
  have hfold : ∀ c : Cache, c.listed.Nodup → (ws.foldl write c).listed.Nodup := by
    induction ws with
    | nil => exact fun c h => h
    | cons w ws ih => exact fun c h => ih _ (nodup_listed_write h w)
  exact hfold _ List.nodup_nil

theorem patterns_fed (patterns : List Pattern) (ws : List Write) :
    (fed patterns ws).patterns = patterns := by
  have hfold : ∀ c : Cache, (ws.foldl write c).patterns = c.patterns := by
    induction ws with
    | nil => exact fun c => rfl
    | cons w ws ih =>
      intro c
      obtain ⟨listed, hwrite, _⟩ := c.write_eq w
      rw [List.foldl_cons, ih, hwrite]
      exact (patterns_listed_foldl_change c _).1
  exact hfold _

theorem serves_fed_iff (patterns : List Pattern) (ws : List Write) (ns : String) :
    (fed patterns ws).serves ns = true ↔
      (∃ p ∈ patterns, p.isMatch ns = true) ∧ ∀ k, ∃ w ∈ ws, w.ListsAll k := by
  unfold serves
  rw [Bool.and_eq_true, List.all_eq_true, List.any_eq_true, patterns_fed, and_comm]
  simp [listed_fed]

/-- No kind is noted twice, so that to have all of them is to have as many. -/
theorem serves_fed_eq (patterns : List Pattern) (ws : List Write) (ns : String) :
    (fed patterns ws).serves ns =
      ((fed patterns ws).listed.length == CachedKind.all.length &&
        patterns.any (·.isMatch ns)) := by
  unfold serves
  rw [patterns_fed]
  congr 1
  rw [Bool.eq_iff_iff, beq_iff_eq, length_eq_length_all_iff (nodup_listed_fed patterns ws)]
  simp

theorem key_of_find?_held {item : k.Item}
    (h : ((fed patterns ws).held k ns).find? name = some item) :
    homeOf item = ns ∧ Object.anyName item = name := by
  have hentry : (fed patterns ws).entries.get k ns name = some item := h
  rw [entries_fed, Replay.get_ofChanges_eq_some_iff] at hentry
  obtain ⟨_, _, _, hkey, _⟩ := hentry
  simpa [Change.key] using hkey

/-! Listings of what is held under its own names. -/

theorem mem_listing
    (hnames : ∀ name item, (c.held k ns).find? name = some item → Object.anyName item = name)
    {item : k.Item} :
    item ∈ c.listing k ns ↔ (c.held k ns).find? (Object.anyName item) = some item := by
  unfold listing NameMap.values
  rw [List.mem_map]
  constructor
  · rintro ⟨⟨name, item⟩, hmem, rfl⟩
    have hfound := NameMap.mem_entries_iff.1 hmem
    rwa [hnames name item hfound]
  · intro hfound
    exact ⟨(Object.anyName item, item), NameMap.mem_entries_iff.2 hfound, rfl⟩

theorem ascending_listing
    (hnames : ∀ name item, (c.held k ns).find? name = some item → Object.anyName item = name) :
    (c.listing k ns).Pairwise fun a b => Object.anyName a < Object.anyName b := by
  unfold listing NameMap.values
  rw [List.pairwise_map]
  refine (c.held k ns).ascending.imp_of_mem ?_
  rintro ⟨name, item⟩ ⟨name', item'⟩ hmem hmem' hlt
  rwa [hnames name item (NameMap.mem_entries_iff.1 hmem),
    hnames name' item' (NameMap.mem_entries_iff.1 hmem')]

theorem held_write_of_ne {w : Write} (h : ∀ change ∈ w.changes, ∀ name, change.key ≠ (k, ns, name)) :
    (c.write w).held k ns = c.held k ns := by
  have hfold : ∀ changes : List Change, (∀ change ∈ changes, ∀ name, change.key ≠ (k, ns, name)) →
      ∀ c : Cache, (changes.foldl change c).held k ns = c.held k ns := by
    intro changes hchanges
    induction changes with
    | nil => exact fun c => rfl
    | cons first changes ih =>
      intro c
      rw [List.forall_mem_cons] at hchanges
      rw [List.foldl_cons, ih hchanges.2, held_change_of_ne hchanges.1]
  obtain ⟨listed, hwrite, _⟩ := c.write_eq w
  rw [hwrite]
  exact hfold _ h c

theorem fed_concat (patterns : List Pattern) (ws : List Write) (w : Write) :
    fed patterns (ws ++ [w]) = (fed patterns ws).write w := by
  simp [fed]

/-- What a cache tells of its namespaces is told from a plain replay of its writes. -/
structure Refines (c : Cache) (patterns : List Pattern) (ws : List Write) : Prop where
  ascending : ∀ k ns, (c.listing k ns).Pairwise fun a b =>
    Text.bytes (Object.anyName a) < Text.bytes (Object.anyName b)
  mem_listing : ∀ k ns name item,
    item ∈ c.listing k ns ∧ Object.anyName item = name ↔
      (Replay.ofChanges (ws.flatMap Write.changes)).get k ns name = some item
  lastWins : ∀ k ns name item,
    (Replay.ofChanges (ws.flatMap Write.changes)).get k ns name = some item ↔
      Leaves (ws.flatMap Write.changes) k ns name item
  serves : ∀ ns, c.serves ns = true ↔
    (∃ p ∈ patterns, p.isMatch ns = true) ∧ ∀ k, ∃ w ∈ ws, w.ListsAll k
  /-- It is enough to count the kinds that were listed in full. -/
  counts : ∀ ns, c.serves ns =
    (c.listed.length == CachedKind.all.length && patterns.any (·.isMatch ns))

theorem refines_fed (patterns : List Pattern) (ws : List Write) :
    (fed patterns ws).Refines patterns ws where
  ascending k ns :=
    (ascending_listing fun _ _ hfound => (key_of_find?_held hfound).2).imp Text.bytes_lt_of_lt
  mem_listing k ns name item := by
    rw [Cache.mem_listing fun _ _ hfound => (key_of_find?_held hfound).2, ← entries_fed patterns]
    constructor
    · rintro ⟨hfound, rfl⟩
      exact hfound
    · intro hentry
      obtain ⟨_, rfl⟩ := key_of_find?_held hentry
      exact ⟨hentry, rfl⟩
  lastWins _ _ _ _ := Replay.get_ofChanges_eq_some_iff
  serves := serves_fed_iff patterns ws
  counts := serves_fed_eq patterns ws

/-- A cache reads as a plain replay of its writes, in which the last change at a key wins. What is
written elsewhere does not change a listing, and a namespace that is served stays so; only full
listings make it served. -/
theorem fed_refines_replay (patterns : List Pattern) (ws : List Write) :
    (fed patterns ws).Refines patterns ws ∧
      (∀ w k ns, (∀ change ∈ w.changes, ∀ name, change.key ≠ (k, ns, name)) →
        (fed patterns (ws ++ [w])).listing k ns = (fed patterns ws).listing k ns) ∧
      ∀ more ns, ((fed patterns ws).serves ns = true →
          (fed patterns (ws ++ more)).serves ns = true) ∧
        ((∀ w ∈ more, ∀ k, ¬w.ListsAll k) →
          (fed patterns (ws ++ more)).serves ns = (fed patterns ws).serves ns) := by
  refine ⟨refines_fed patterns ws, fun w k ns helsewhere => ?_, fun more ns => ⟨?_, ?_⟩⟩
  · rw [fed_concat]
    exact congrArg NameMap.values (held_write_of_ne helsewhere)
  · simp only [serves_fed_iff]
    rintro ⟨hmatch, hlisted⟩
    refine ⟨hmatch, fun k => ?_⟩
    obtain ⟨w, hw, hall⟩ := hlisted k
    exact ⟨w, List.mem_append_left more hw, hall⟩
  · intro hnone
    have hsame : ∀ k, (∃ w ∈ ws ++ more, w.ListsAll k) ↔ ∃ w ∈ ws, w.ListsAll k := by
      intro k
      refine ⟨?_, fun ⟨w, hw, hall⟩ => ⟨w, List.mem_append_left more hw, hall⟩⟩
      rintro ⟨w, hw, hall⟩
      rcases List.mem_append.1 hw with hw | hw
      · exact ⟨w, hw, hall⟩
      · exact absurd hall (hnone w hw k)
    rw [Bool.eq_iff_iff, serves_fed_iff, serves_fed_iff]
    simp only [hsame]

end WorkloadMap.Cache
