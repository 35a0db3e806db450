import WorkloadMap.Cache.Basic
import WorkloadMap.Text.Numeral

/-!
Counts of what is written to the cache and of what it then holds, and their text exposition.
-/
namespace WorkloadMap

/-- A count for each kind and namespace that has one. -/
abbrev Series := ByKind fun _ => NameMap Nat

namespace Series

def none : Series := ⟨fun _ => ∅⟩

def set (s : Series) (k : CachedKind) (ns : String) (n : Nat) : Series :=
  s.update k (·.insert ns n)

def increase (s : Series) (k : CachedKind) (ns : String) : Series :=
  s.update k (·.update ns fun n => n.getD 0 + 1)

end Series

structure CacheMetrics where
  objects : Series := .none
  applies : Series := .none
  deletes : Series := .none
  /-- The number of full listings of each kind. -/
  resets : ByKind fun _ => Nat := ⟨fun _ => 0⟩

namespace CacheMetrics

/-- The size of a namespace as it is now. -/
def observe (m : CacheMetrics) (c : Cache) (k : CachedKind) (ns : String) : CacheMetrics :=
  { m with objects := m.objects.set k ns (c.size k ns) }

/-- The namespaces a listing touches, by an object that names it or by a removal. -/
def touched {k : CachedKind} (items : List k.Item) (removed : NameMap (List String)) : NameSet :=
  .ofList (items.filterMap (fun item => (Object.metadata item).ns) ++ removed.keys)

/-- Counts a write, given the cache after it. -/
def record (m : CacheMetrics) (after : Cache) : Cache.Write → CacheMetrics
  | .apply k item =>
    let ns := Cache.homeOf item
    { m with applies := m.applies.increase k ns }.observe after k ns
  | .delete k ns _ => { m with deletes := m.deletes.increase k ns }.observe after k ns
  | .reset k items removed =>
    (touched items removed).toList.foldl (fun m ns => m.observe after k ns)
      { m with resets := m.resets.update k (· + 1) }

/-! Exposition. -/

private def family (name kind help : String) : List String :=
  ["# HELP " ++ name ++ " " ++ help ++ ".", "# TYPE " ++ name ++ " " ++ kind]

private def sample (name : String) (labels : List (String × String)) (n : Nat) : String :=
  let labels := labels.map fun (key, value) => key ++ "=\"" ++ value ++ "\""
  name ++ "\x7b" ++ ",".intercalate labels ++ "\x7d " ++ Text.digits 10 n

private def seriesSamples (name : String) (s : Series) : List String :=
  CachedKind.all.flatMap fun k => (s.get k).entries.map fun (ns, n) =>
    sample name [("namespace", ns), ("kind", k.name)] n

/-- A kind that was never listed has no count of listings. -/
private def resetSamples (m : CacheMetrics) : List String :=
  (CachedKind.all.filter fun k => m.resets.get k != 0).map fun k =>
    sample "cache_resets_total" [("kind", k.name)] (m.resets.get k)

private def ending : String := "# EOF"

/-- Without metrics there are no families to expose. -/
def emptyLines : List String := [ending]

def lines (m : CacheMetrics) : List String :=
  family "cache_objects" "gauge" "Gauge of the number of objects held in the cache" ++
    seriesSamples "cache_objects" m.objects ++
    family "cache_applies" "counter" "Count of objects applied to the cache" ++
    seriesSamples "cache_applies_total" m.applies ++
    family "cache_deletes" "counter" "Count of objects deleted from the cache" ++
    seriesSamples "cache_deletes_total" m.deletes ++
    family "cache_resets" "counter" "Count of full relistings applied to the cache" ++
    resetSamples m ++ [ending]

end CacheMetrics

/-- A cache whose writes are counted. -/
structure MeteredCache where
  cache : Cache
  metrics : CacheMetrics := {}

def MeteredCache.write (m : MeteredCache) (w : Cache.Write) : MeteredCache :=
  let cache := m.cache.write w
  ⟨cache, m.metrics.record cache w⟩

end WorkloadMap
