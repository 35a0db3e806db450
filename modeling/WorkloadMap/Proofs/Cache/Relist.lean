import WorkloadMap.Proofs.Cache.Replay
import WorkloadMap.Proofs.NameMap
import WorkloadMap.Proofs.Occurrence

/-!
Full listings. What a listing removes goes before its objects come in, so that a name may be on both
sides of it. Main statement: where a listing removes whatever is held and no longer there, the kind
is held as it was listed, whatever was held before, and no other kind has changed.
-/
namespace WorkloadMap.Cache

variable {c : Cache} {k j : CachedKind} {ns name : String} {items : List k.Item} {item : k.Item}
  {removed : NameMap (List String)}

def IsAt (ns name : String) (item : k.Item) : Prop :=
  homeOf item = ns ∧ Object.anyName item = name

instance (ns name : String) (item : k.Item) : Decidable (IsAt ns name item) :=
  inferInstanceAs (Decidable (_ ∧ _))

/-- Whatever is held of a kind is listed or removed. What is removed may be listed as well, or not
be held at all. -/
def Accounts (c : Cache) (items : List k.Item) (removed : NameMap (List String)) : Prop :=
  ∀ ns, ∀ name ∈ (c.held k ns).keys,
    (∃ item ∈ items, IsAt ns name item) ∨ name ∈ (removed.find? ns).getD []

theorem held_of_unknown (h : ns ∉ c.namespaces.keys) : c.held k ns = ∅ := by
  have hnone : c.namespaces.find? ns = none := by
    rwa [NameMap.mem_keys_iff, Option.not_isSome_iff_eq_none] at h
  simp [held, contents, hnone, Contents.none]

/-- Only the namespaces that are known need to be looked at. -/
instance (c : Cache) (items : List k.Item) (removed : NameMap (List String)) :
    Decidable (c.Accounts items removed) :=
  decidable_of_iff
    (∀ ns ∈ c.namespaces.keys, ∀ name ∈ (c.held k ns).keys,
      (∃ item ∈ items, IsAt ns name item) ∨ name ∈ (removed.find? ns).getD [])
    ⟨fun h ns name hname => by
      by_cases hns : ns ∈ c.namespaces.keys
      · exact h ns hns name hname
      · simp [held_of_unknown hns, NameMap.mem_keys_iff] at hname,
    fun h ns _ => h ns⟩

theorem mem_removals : (ns, name) ∈ removals removed ↔ name ∈ (removed.find? ns).getD [] := by
  simp only [removals, List.mem_flatMap, List.mem_map, Prod.exists, Prod.mk.injEq]
  constructor
  · rintro ⟨_, names, hentry, _, hname, rfl, rfl⟩
    rw [NameMap.mem_entries_iff.1 hentry]
    exact hname
  · intro hname
    cases hfound : removed.find? ns with
    | none => simp [hfound] at hname
    | some names =>
      rw [hfound] at hname
      exact ⟨ns, names, NameMap.mem_entries_iff.2 hfound, name, hname, rfl, rfl⟩

/-! The changes of a listing. -/

theorem key_put_iff : (Change.put k item).key = (k, ns, name) ↔ IsAt ns name item := by
  simp [Change.key, IsAt]

theorem leaves_map_put_iff :
    Leaves (items.map (Change.put k)) k ns name item ↔ IsLast (IsAt ns name) items item := by
  induction items with
  | nil => simp [Leaves, not_isLast_nil]
  | cons first items ih =>
    have hput : Change.put k first = Change.put k item ↔ item = first := by simp [eq_comm]
    simp only [List.map_cons, leaves_cons, isLast_cons_iff, ih, List.forall_mem_map, hput, ne_eq,
      key_put_iff]

theorem not_leaves_map_drop (pairs : List (String × String)) :
    ¬Leaves (pairs.map fun (ns, name) => Change.drop k ns name) k ns name item := by
  rintro ⟨before, after, heq, _⟩
  have hput : Change.put k item ∈ pairs.map fun (ns, name) => Change.drop k ns name := by
    simp [heq]
  obtain ⟨_, _, hdrop⟩ := List.mem_map.1 hput
  cases hdrop

theorem kind_of_mem_changes_reset {change : Change}
    (h : change ∈ (Write.reset k items removed).changes) : change.key.1 = k := by
  rcases List.mem_append.1 h with hdrop | hput
  · obtain ⟨_, _, rfl⟩ := List.mem_map.1 hdrop
    rfl
  · obtain ⟨_, _, rfl⟩ := List.mem_map.1 hput
    rfl

theorem held_reset_of_ne (h : j ≠ k) (ns : String) :
    (c.write (.reset k items removed)).held j ns = c.held j ns := by
  refine held_write_of_ne fun change hchange name hkey => h ?_
  rw [← kind_of_mem_changes_reset hchange, hkey]

/-- A name that is not listed is held after the listing only if it was held before and was not
removed, which is ruled out. -/
theorem find?_held_reset_iff (h : c.Accounts items removed) :
    ((c.write (.reset k items removed)).held k ns).find? name = some item ↔
      IsLast (IsAt ns name) items item := by
  change (c.write (.reset k items removed)).entries.get k ns name = some item ↔ _
  rw [entries_write, Write.changes, List.foldl_append, Replay.get_foldl_change_eq_some_iff,
    leaves_map_put_iff, Replay.get_foldl_change_eq_some_iff]
  refine ⟨?_, .inl⟩
  rintro (hlast | ⟨hunlisted, hleft | ⟨hkept, hheld⟩⟩)
  · exact hlast
  · exact absurd hleft (not_leaves_map_drop _)
  · have hname : name ∈ (c.held k ns).keys :=
      NameMap.mem_keys_iff.2 (Option.isSome_of_eq_some hheld)
    rcases h ns name hname with ⟨listed, hlisted, hat⟩ | hremoved
    · exact absurd (key_put_iff.2 hat) (hunlisted _ (List.mem_map_of_mem hlisted))
    · have hdrop := List.mem_map_of_mem (f := fun (ns, name) => Change.drop k ns name)
        (mem_removals.2 hremoved)
      exact absurd rfl (hkept _ hdrop)

/-- A kind is held as it was listed, the last object of each name in its namespace, and the other
kinds as they were. -/
structure Converges (before after : Cache) (items : List k.Item) : Prop where
  held : ∀ ns name item, (after.held k ns).find? name = some item ↔
    IsLast (IsAt ns name) items item
  listing : ∀ ns item, item ∈ after.listing k ns ↔
    IsLast (IsAt ns (Object.anyName item)) items item
  others : ∀ j, j ≠ k → ∀ ns, after.held j ns = before.held j ns

variable {patterns : List Pattern} {ws : List Write}

theorem converges_reset (h : (fed patterns ws).Accounts items removed) :
    Converges (fed patterns ws) (fed patterns (ws ++ [.reset k items removed])) items where
  held ns name item := by
    rw [fed_concat]
    exact find?_held_reset_iff h
  listing ns item := by
    rw [mem_listing fun _ _ hfound => (key_of_find?_held hfound).2, fed_concat]
    exact find?_held_reset_iff h
  others j hj ns := by
    rw [fed_concat]
    exact held_reset_of_ne hj ns

/-- After a full listing that accounts for whatever is held of its kind, the kind is held as it was
listed and no other kind has changed; and after other writes the listing, if it accounts for what
they left, comes to the same. -/
theorem fed_reset_converges (patterns : List Pattern) (ws : List Write) (k : CachedKind)
    (items : List k.Item) (removed : NameMap (List String))
    (h : (fed patterns ws).Accounts items removed) :
    Converges (fed patterns ws) (fed patterns (ws ++ [.reset k items removed])) items ∧
      ∀ patterns' ws' removed', (fed patterns' ws').Accounts items removed' → ∀ ns,
        (fed patterns' (ws' ++ [.reset k items removed'])).held k ns =
          (fed patterns (ws ++ [.reset k items removed])).held k ns := by
  refine ⟨converges_reset h, fun patterns' ws' removed' h' ns => NameMap.ext_find? fun name => ?_⟩
  refine Option.ext fun item => ?_
  rw [(converges_reset h).held, (converges_reset h').held]

def podItem (ns name version : String) : CachedKind.pod.Item :=
  ({ metadata := { name := some name, ns := some ns, resourceVersion := some version } } : Pod)

/-- Pods of two namespaces. -/
def stocked : List Write := [
  .apply .pod (podItem "shop" "web-a" "1"), .apply .pod (podItem "shop" "web-b" "2"),
  .apply .pod (podItem "depot" "scale" "3"), .delete .pod "shop" "web-a",
  .apply .pod (podItem "shop" "api-a" "4")]

/-- One of these was held, one is listed twice, and one is in a new namespace. -/
def counted : List CachedKind.pod.Item := [
  podItem "shop" "web-b" "5", podItem "shop" "web-c" "6", podItem "attic" "chest" "7",
  podItem "shop" "web-c" "8"]

/-- One of these is listed, and one was never held. -/
def missed : NameMap (List String) :=
  .ofList [("shop", ["api-a", "web-b", "ghost"]), ("depot", ["scale"])]

theorem stocked_reset_converges :
    (fed [] stocked).Accounts counted missed ∧
      Converges (fed [] stocked) (fed [] (stocked ++ [.reset .pod counted missed])) counted ∧
      ∀ patterns' ws' removed', (fed patterns' ws').Accounts counted removed' → ∀ ns,
        (fed patterns' (ws' ++ [.reset .pod counted removed'])).held .pod ns =
          (fed [] (stocked ++ [.reset .pod counted missed])).held .pod ns := by
  have haccounts : (fed [] stocked).Accounts counted missed := by decide +kernel
  exact ⟨haccounts, fed_reset_converges [] stocked .pod counted missed haccounts⟩

/-- A name on both sides is held as it was listed, and of two objects of one name the later is. -/
example :
    ((fed [] (stocked ++ [.reset .pod counted missed])).listing .pod "shop").map Object.label =
      ["web-b@5", "web-c@8"] := by decide +kernel

end WorkloadMap.Cache
