import Mathlib.Data.List.Induction
import WorkloadMap.Cache.Metrics
import WorkloadMap.Proofs.Cache.Replay

/-!
The gauge of what a cache holds. A write tells the sizes of the namespaces that it touched, and a
full listing overlooks that an object without a namespace is held under the empty name. Main
statement: the gauge is right throughout a run exactly if no listing changes a size that it
overlooks.
-/
namespace WorkloadMap

namespace Cache.Write

/-- Whether a write has the size of a kind in a namespace told. -/
def Tells : Write → CachedKind → String → Prop
  | .apply k item, j, ns => k = j ∧ homeOf item = ns
  | .delete k ns' _, j, ns => k = j ∧ ns' = ns
  | .reset k items removed, j, ns => k = j ∧ ns ∈ (CacheMetrics.touched items removed).toList

/-- Whether a full listing of a kind has objects without a namespace and nothing else by which the
empty name is touched. -/
def Overlooks : Write → CachedKind → Prop
  | .reset k items removed, j => k = j ∧ (∃ item ∈ items, (Object.metadata item).ns = none) ∧
      "" ∉ (CacheMetrics.touched items removed).toList
  | .apply .., _ | .delete .., _ => False

end Cache.Write

namespace CacheMetrics

variable {k j : CachedKind} {ns : String}

theorem mem_touched {items : List k.Item} {removed : NameMap (List String)} :
    ns ∈ (touched items removed).toList ↔
      (∃ item ∈ items, (Object.metadata item).ns = some ns) ∨ ns ∈ removed.keys := by
  simp [touched]

def gauge (m : CacheMetrics) (k : CachedKind) (ns : String) : Option Nat :=
  (m.objects.get k).find? ns

theorem gauge_observe (m : CacheMetrics) (c : Cache) (ns' : String) :
    (m.observe c k ns').gauge j ns = if k = j ∧ ns = ns' then some (c.size j ns) else m.gauge j ns := by
  unfold gauge observe Series.set
  by_cases hk : j = k
  · subst hk
    rw [ByKind.get_update_self, NameMap.find?_insert]
    split
    next hns => simp [hns]
    next hns => simp [hns]
  · rw [ByKind.get_update_of_ne _ _ hk, if_neg (fun h => hk h.1.symm)]

theorem gauge_foldl_observe (m : CacheMetrics) (c : Cache) (nss : List String) :
    (nss.foldl (fun m ns => m.observe c k ns) m).gauge j ns =
      if k = j ∧ ns ∈ nss then some (c.size j ns) else m.gauge j ns := by
  induction nss generalizing m with
  | nil => simp
  | cons first nss ih =>
    rw [List.foldl_cons, ih, gauge_observe]
    by_cases hk : k = j
    · by_cases hns : ns = first
      · simp [hk, hns]
      · simp [hk, hns]
    · simp [hk]

theorem gauge_record_of_tells (m : CacheMetrics) (after : Cache) {w : Cache.Write}
    (h : w.Tells k ns) : (m.record after w).gauge k ns = some (after.size k ns) := by
  cases w with
  | apply k' item =>
    obtain ⟨rfl, rfl⟩ := h
    exact (gauge_observe _ after _).trans (if_pos ⟨rfl, rfl⟩)
  | delete k' ns' name =>
    obtain ⟨rfl, rfl⟩ := h
    exact (gauge_observe _ after _).trans (if_pos ⟨rfl, rfl⟩)
  | reset k' items removed => exact (gauge_foldl_observe _ after _).trans (if_pos h)

theorem gauge_record_of_not_tells (m : CacheMetrics) (after : Cache) {w : Cache.Write}
    (h : ¬w.Tells k ns) : (m.record after w).gauge k ns = m.gauge k ns := by
  cases w with
  | apply k' item => exact (gauge_observe _ after _).trans (if_neg fun h' => h ⟨h'.1, h'.2.symm⟩)
  | delete k' ns' name =>
    exact (gauge_observe _ after _).trans (if_neg fun h' => h ⟨h'.1, h'.2.symm⟩)
  | reset k' items removed => exact (gauge_foldl_observe _ after _).trans (if_neg h)

end CacheMetrics

namespace Cache.Write

variable {w : Write} {k : CachedKind} {ns name : String}

/-- Every change is told of, but for that of an object without a namespace in a full listing. -/
theorem tells_or_overlooks {change : Change} (hchange : change ∈ w.changes)
    (hkey : change.key = (k, ns, name)) : w.Tells k ns ∨ ns = "" ∧ w.Overlooks k := by
  cases w with
  | apply k' item =>
    cases List.mem_singleton.1 hchange
    cases hkey
    exact .inl ⟨rfl, rfl⟩
  | delete k' ns' name' =>
    cases List.mem_singleton.1 hchange
    cases hkey
    exact .inl ⟨rfl, rfl⟩
  | reset k' items removed =>
    rcases List.mem_append.1 hchange with hremoved | hput
    · obtain ⟨⟨ns', name'⟩, hpair, rfl⟩ := List.mem_map.1 hremoved
      cases hkey
      obtain ⟨⟨ns', names⟩, hentry, hname⟩ := List.mem_flatMap.1 hpair
      obtain ⟨_, _, heq⟩ := List.mem_map.1 hname
      cases heq
      have hmem : ns ∈ removed.keys := List.mem_map_of_mem hentry
      exact .inl ⟨rfl, CacheMetrics.mem_touched.2 (.inr hmem)⟩
    · obtain ⟨item, hitem, rfl⟩ := List.mem_map.1 hput
      cases hkey
      cases hns : (Object.metadata item).ns with
      | some ns =>
        have hhome : homeOf item = ns := by simp [homeOf, hns]
        exact .inl ⟨rfl, CacheMetrics.mem_touched.2 (.inl ⟨item, hitem, hhome ▸ hns⟩)⟩
      | none =>
        have hhome : homeOf item = "" := by simp [homeOf, hns]
        by_cases htouched : "" ∈ (CacheMetrics.touched items removed).toList
        · exact .inl ⟨rfl, hhome ▸ htouched⟩
        · exact .inr ⟨hhome, rfl, ⟨item, hitem, hns⟩, htouched⟩

theorem not_tells_of_overlooks (h : w.Overlooks k) : ¬w.Tells k "" := by
  cases w with
  | apply => exact h.elim
  | delete => exact h.elim
  | reset k' items removed => exact fun htells => h.2.2 htells.2

end Cache.Write

namespace MeteredCache

variable {m : MeteredCache} {w : Cache.Write} {k : CachedKind} {ns : String}

/-- A cache that was empty before some writes, all of which were counted. -/
def fed (patterns : List Pattern) (ws : List Cache.Write) : MeteredCache :=
  ws.foldl write { cache := { patterns } }

/-- Whether the gauge of a kind in a namespace is the size, or is missing where that is 0. -/
def IsGauged (m : MeteredCache) (k : CachedKind) (ns : String) : Prop :=
  (∀ n, m.metrics.gauge k ns = some n → n = m.cache.size k ns) ∧
    (0 < m.cache.size k ns → (m.metrics.gauge k ns).isSome)

theorem isGauged_write_of_tells (h : w.Tells k ns) : (m.write w).IsGauged k ns := by
  have hgauge : (m.write w).metrics.gauge k ns = some ((m.write w).cache.size k ns) :=
    m.metrics.gauge_record_of_tells _ h
  refine ⟨fun n hn => ?_, fun _ => by rw [hgauge]; rfl⟩
  rw [hgauge] at hn
  exact (Option.some.inj hn).symm

/-- Where the size was right and is not told, it is still right exactly if it did not change. -/
theorem isGauged_write_iff_of_not_tells (hgauged : m.IsGauged k ns) (h : ¬w.Tells k ns) :
    (m.write w).IsGauged k ns ↔ (m.write w).cache.size k ns = m.cache.size k ns := by
  have hgauge : (m.write w).metrics.gauge k ns = m.metrics.gauge k ns :=
    m.metrics.gauge_record_of_not_tells _ h
  unfold IsGauged at hgauged ⊢
  rw [hgauge]
  obtain ⟨hright, hsome⟩ := hgauged
  cases hn : m.metrics.gauge k ns with
  | some n =>
    have hsize := hright n hn
    simp [← hsize, eq_comm]
  | none =>
    have hsize : m.cache.size k ns = 0 := by
      by_contra hpos
      simpa [hn] using hsome (Nat.pos_of_ne_zero hpos)
    simp [hsize]

theorem isGauged_empty (patterns : List Pattern) (k : CachedKind) (ns : String) :
    (fed patterns []).IsGauged k ns :=
  ⟨nofun, fun hpos => absurd hpos (Nat.lt_irrefl 0)⟩

theorem fed_concat (patterns : List Pattern) (ws : List Cache.Write) (w : Cache.Write) :
    fed patterns (ws ++ [w]) = (fed patterns ws).write w := by
  simp [fed]

/-- The gauge is right at every point of a run exactly if the size of the empty name stays as it is
wherever a full listing overlooks it. -/
theorem gauged_throughout_iff (patterns : List Pattern) (ws : List Cache.Write) (k : CachedKind)
    (ns : String) :
    (∀ before, before <+: ws → (fed patterns before).IsGauged k ns) ↔
      ∀ before w, before ++ [w] <+: ws → ns = "" → w.Overlooks k →
        (fed patterns (before ++ [w])).cache.size k ns = (fed patterns before).cache.size k ns := by
  constructor
  · rintro hgauged before w hpoint rfl hoverlooks
    have hbefore := hgauged before ((List.prefix_append before [w]).trans hpoint)
    have hafter := hgauged _ hpoint
    rw [fed_concat] at hafter ⊢
    exact (isGauged_write_iff_of_not_tells hbefore
      (Cache.Write.not_tells_of_overlooks hoverlooks)).1 hafter
  · intro hsizes before
    induction before using List.reverseRecOn with
    | nil => exact fun _ => isGauged_empty patterns k ns
    | append_singleton before w ih =>
      intro hpoint
      have hgauged := ih ((List.prefix_append before [w]).trans hpoint)
      rw [fed_concat]
      by_cases htells : w.Tells k ns
      · exact isGauged_write_of_tells htells
      · refine (isGauged_write_iff_of_not_tells hgauged htells).2 ?_
        by_cases hoverlooks : ns = "" ∧ w.Overlooks k
        · rw [← fed_concat]
          exact hsizes before w hpoint hoverlooks.1 hoverlooks.2
        · -- Then no change of the write is to the kind in the namespace.
          refine congrArg NameMap.size (Cache.held_write_of_ne fun change hchange name hkey => ?_)
          exact (Cache.Write.tells_or_overlooks hchange hkey).elim htells hoverlooks

/-- A full listing brings in a pod without a namespace, of which nothing is told. -/
theorem nameless_home_untold :
    ¬∀ patterns ws k ns, (fed patterns ws).IsGauged k ns := by
  intro hgauged
  let pod : CachedKind.pod.Item := ({ metadata := { name := some "a" } } : Pod)
  have hsome := (hgauged [] [.reset .pod [pod] ∅] .pod "").2 (by decide)
  revert hsome
  decide

end MeteredCache

end WorkloadMap
