/-!
Hosts as Istio configuration writes them: a service by its short name, with its namespace, or in
full.
-/
namespace WorkloadMap.Host

/-- What follows `start` in a text that begins with it. -/
def after? (start cs : List Char) : Option (List Char) :=
  if start.isPrefixOf cs then some (cs.drop start.length) else none

theorem after?_eq_some_iff {start cs rest : List Char} :
    after? start cs = some rest ↔ cs = start ++ rest := by
  unfold after?
  constructor
  · intro h
    split at h
    next hstart =>
      obtain ⟨tail, rfl⟩ := List.isPrefixOf_iff_prefix.1 hstart
      rw [List.drop_left] at h
      rw [Option.some.inj h]
    next => cases h
  · rintro rfl
    rw [if_pos (List.isPrefixOf_iff_prefix.2 (List.prefix_append ..)), List.drop_left]

/-- Whether a host refers to a service. After the namespace any text that begins with `.svc` is
taken, whatever the domain. -/
def refersTo (host service ns : String) : Bool :=
  host == service ||
    match after? (service.toList ++ '.' :: ns.toList) host.toList with
    | none => false
    | some rest => rest.isEmpty || ['.', 's', 'v', 'c'].isPrefixOf rest

end WorkloadMap.Host
