import WorkloadMap.Cache.Kind
import WorkloadMap.Pattern.Basic

/-!
A cache of the objects that are read most often, kept up to date by writes. Main notions: what the
cache holds of a kind in a namespace, and the namespaces that are complete enough to be served from
it.
-/
namespace WorkloadMap

/-- The objects of one namespace, by kind and name. -/
abbrev Contents := ByKind fun k => NameMap k.Item

def Contents.none : Contents := ⟨fun _ => ∅⟩

structure Cache where
  /-- The namespaces that may be served. -/
  patterns : List Pattern
  /-- A namespace stays once an object of it was applied. -/
  namespaces : NameMap Contents := ∅
  /-- The kinds that were listed in full. -/
  listed : List CachedKind := []

namespace Cache

/-- A change to one kind. A full listing names what it no longer holds, by namespace. -/
inductive Write where
  | apply (k : CachedKind) (item : k.Item)
  | delete (k : CachedKind) (ns name : String)
  | reset (k : CachedKind) (items : List k.Item) (removed : NameMap (List String))

/-- An object without a namespace is held under the empty name. -/
def homeOf {k : CachedKind} (item : k.Item) : String :=
  (Object.metadata item).ns.getD ""

def contents (c : Cache) (ns : String) : Contents :=
  (c.namespaces.find? ns).getD .none

def held (c : Cache) (k : CachedKind) (ns : String) : NameMap k.Item :=
  (c.contents ns).get k

/-- In the order of names. -/
def listing (c : Cache) (k : CachedKind) (ns : String) : List k.Item :=
  (c.held k ns).values

def pods (c : Cache) (ns : String) (s : Selector) : List Pod :=
  List.filter (fun pod : Pod => s.selects pod.metadata.labels) (c.listing .pod ns)

def size (c : Cache) (k : CachedKind) (ns : String) : Nat :=
  (c.held k ns).size

def apply (c : Cache) (k : CachedKind) (item : k.Item) : Cache :=
  { c with
    namespaces := c.namespaces.update (homeOf item) fun held =>
      (held.getD .none).update k (·.insert (Object.anyName item) item) }

/-- A namespace that is not known does not become so by a deletion. -/
def delete (c : Cache) (k : CachedKind) (ns name : String) : Cache :=
  match c.namespaces.find? ns with
  | none => c
  | some held => { c with namespaces := c.namespaces.insert ns (held.update k (·.erase name)) }

/-- Each name that a listing removed, with its namespace. -/
def removals (removed : NameMap (List String)) : List (String × String) :=
  removed.entries.flatMap fun (ns, names) => names.map fun name => (ns, name)

/-- What was removed goes before what is there comes in. -/
def reset (c : Cache) (k : CachedKind) (items : List k.Item) (removed : NameMap (List String)) :
    Cache :=
  let left := (removals removed).foldl (fun c (ns, name) => c.delete k ns name) c
  let full := items.foldl (fun c item => c.apply k item) left
  { full with listed := if k ∈ full.listed then full.listed else k :: full.listed }

def write (c : Cache) : Write → Cache
  | .apply k item => c.apply k item
  | .delete k ns name => c.delete k ns name
  | .reset k items removed => c.reset k items removed

/-- A namespace is served once it is known that nothing of it is missing. -/
def serves (c : Cache) (ns : String) : Bool :=
  CachedKind.all.all (· ∈ c.listed) && c.patterns.any (·.isMatch ns)

def servedNamespaces (c : Cache) : List String :=
  c.namespaces.keys.filter c.serves

end Cache

end WorkloadMap
