import WorkloadMap.Istio.Object

/-!
The hosts that objects name, and the services they stand for. Beside the three documented forms of
a service's host any text is taken that goes on after `.svc`, so that hosts of other domains are
taken as well. Main statement: an object refers to a service exactly as documented unless such a
host is all that it names of it.
-/
namespace WorkloadMap

namespace Host

/-- The forms of a host: the service alone, with its namespace, and in full, with or without the
domain of the cluster. -/
inductive IsFormOf (service ns : String) : String → Prop
  | short : IsFormOf service ns service
  | qualified : IsFormOf service ns (service ++ "." ++ ns)
  | full : IsFormOf service ns (service ++ "." ++ ns ++ ".svc")
  | inCluster (domain : String) : IsFormOf service ns (service ++ "." ++ ns ++ ".svc." ++ domain)

/-- The label after the namespace is longer than `svc`, so that the host is in another domain. -/
def Strays (service ns host : String) : Prop :=
  ∃ c rest, c ≠ '.' ∧ host = service ++ "." ++ ns ++ ".svc" ++ String.ofList (c :: rest)

variable {service ns host : String}

theorem refersTo_iff_exists : refersTo host service ns = true ↔ host = service ∨
    ∃ rest, host.toList = (service ++ "." ++ ns).toList ++ rest ∧
      (rest = [] ∨ ['.', 's', 'v', 'c'] <+: rest) := by
  have hstart : service.toList ++ '.' :: ns.toList = (service ++ "." ++ ns).toList := by simp
  unfold refersTo
  rw [hstart, Bool.or_eq_true, beq_iff_eq]
  refine or_congr_right ?_
  constructor
  · intro h
    split at h
    next => cases h
    next rest hrest =>
      rw [Bool.or_eq_true, List.isEmpty_iff, List.isPrefixOf_iff_prefix] at h
      exact ⟨rest, after?_eq_some_iff.1 hrest, h⟩
  · rintro ⟨rest, hrest, h⟩
    rw [after?_eq_some_iff.2 hrest]
    dsimp only
    rwa [Bool.or_eq_true, List.isEmpty_iff, List.isPrefixOf_iff_prefix]

theorem IsFormOf.refersTo (h : IsFormOf service ns host) : refersTo host service ns = true := by
  rw [refersTo_iff_exists]
  cases h with
  | short => exact .inl rfl
  | qualified => exact .inr ⟨[], by simp, .inl rfl⟩
  | full => exact .inr ⟨['.', 's', 'v', 'c'], by simp, .inr List.prefix_rfl⟩
  | inCluster domain =>
    exact .inr ⟨['.', 's', 'v', 'c'] ++ '.' :: domain.toList, by simp, .inr (List.prefix_append ..)⟩

theorem Strays.refersTo (h : Strays service ns host) : refersTo host service ns = true := by
  obtain ⟨c, rest, -, rfl⟩ := h
  rw [refersTo_iff_exists]
  exact .inr ⟨['.', 's', 'v', 'c'] ++ c :: rest, by simp, .inr (List.prefix_append ..)⟩

/-- The text after `.svc` says whether a host is in the cluster or strays from it. -/
theorem refersTo_iff : refersTo host service ns = true ↔
    IsFormOf service ns host ∨ Strays service ns host := by
  refine ⟨fun h => ?_, fun h => h.elim IsFormOf.refersTo Strays.refersTo⟩
  obtain rfl | ⟨rest, hhost, rfl | ⟨tail, rfl⟩⟩ := refersTo_iff_exists.1 h
  · exact .inl .short
  · have : host = service ++ "." ++ ns := String.toList_injective (by simpa using hhost)
    exact .inl (this ▸ .qualified)
  · have htail : host = service ++ "." ++ ns ++ ".svc" ++ String.ofList tail :=
      String.toList_injective (by simpa using hhost)
    cases tail with
    | nil =>
      have : host = service ++ "." ++ ns ++ ".svc" := by simpa using htail
      exact .inl (this ▸ .full)
    | cons c rest =>
      by_cases hc : c = '.'
      · have : host = service ++ "." ++ ns ++ ".svc." ++ String.ofList rest :=
          String.toList_injective (by simpa [hc] using hhost)
        exact .inl (this ▸ .inCluster _)
      · exact .inr ⟨c, rest, hc, htail⟩

theorem IsFormOf.not_strays (h : IsFormOf service ns host) : ¬Strays service ns host := by
  rintro ⟨c, rest, hc, hhost⟩
  have hlist := congrArg String.toList hhost
  cases h with
  | short => simp at hlist
  | qualified => simp at hlist
  | full => simp at hlist
  | inCluster domain =>
    have hnext : '.' = c ∧ domain.toList = rest := by simpa using hlist
    exact hc hnext.1.symm

end Host

namespace IstioObject

/-- The hosts that an object names: the one that a destination rule is for, those that a virtual
service is for, and those that its routes lead to. -/
inductive Names (o : IstioObject) (host : String) : Prop
  | rule (kind : o.kind = .destinationRule) (h : o.spec.get? "host" = some (.text host))
  | service (kind : o.kind = .virtualService) (hosts : List Json)
      (h : o.spec.get? "hosts" = some (.array hosts)) (mem : .text host ∈ hosts)
  | route (kind : o.kind = .virtualService) (protocol : String)
      (known : protocol ∈ ["http", "tcp", "tls"]) (routes : List Json)
      (h : o.spec.get? protocol = some (.array routes)) (route : Json) (routed : route ∈ routes)
      (targets : List Json) (there : route.get? "route" = some (.array targets)) (target : Json)
      (targeted : target ∈ targets) (destination : Json)
      (leads : target.get? "destination" = some destination)
      (named : destination.get? "host" = some (.text host))

variable {o : IstioObject} {service ns host : String}

theorem names_iff : o.Names host ↔ host ∈ o.hosts := by
  rw [mem_hosts_iff, mem_routeDestinations_iff]
  constructor
  · intro h
    cases h with
    | rule kind h => exact .inl ⟨kind, h⟩
    | service kind hosts h mem => exact .inr ⟨kind, .inl ⟨hosts, h, mem⟩⟩
    | route kind protocol known routes h route routed targets there target targeted destination
        leads named =>
      exact .inr ⟨kind, .inr ⟨protocol, known, routes, h, route, routed, targets, there, target,
        targeted, destination, leads, named⟩⟩
  · rintro (⟨kind, h⟩ | ⟨kind, ⟨hosts, h, mem⟩ | ⟨protocol, known, routes, h, route, routed,
      targets, there, target, targeted, destination, leads, named⟩⟩)
    · exact .rule kind h
    · exact .service kind hosts h mem
    · exact .route kind protocol known routes h route routed targets there target targeted
        destination leads named

theorem refersToService_iff_exists : o.refersToService service ns = true ↔
    ∃ host, o.Names host ∧ Host.refersTo host service ns = true := by
  simp only [refersToService, List.any_eq_true, names_iff]

/-- An object refers to a service by its documented hosts and by those that stray from them. So it
does as documented exactly if it names no host that strays without naming a documented one. -/
theorem refersToService_documented_iff (o : IstioObject) (service ns : String) :
    (o.refersToService service ns = true ↔
      ∃ host, o.Names host ∧ (Host.IsFormOf service ns host ∨ Host.Strays service ns host)) ∧
    (∀ host, Host.IsFormOf service ns host → ¬Host.Strays service ns host) ∧
    ((o.refersToService service ns = true ↔ ∃ host, o.Names host ∧ Host.IsFormOf service ns host) ↔
      ((∃ host, o.Names host ∧ Host.Strays service ns host) →
        ∃ host, o.Names host ∧ Host.IsFormOf service ns host)) := by
  have hrefers : o.refersToService service ns = true ↔
      ∃ host, o.Names host ∧ (Host.IsFormOf service ns host ∨ Host.Strays service ns host) := by
    simp only [refersToService_iff_exists, Host.refersTo_iff]
  refine ⟨hrefers, fun host h => h.not_strays, ?_⟩
  rw [hrefers]
  constructor
  · rintro hdocumented ⟨host, hnames, hstrays⟩
    exact hdocumented.1 ⟨host, hnames, .inr hstrays⟩
  · intro hcovered
    constructor
    · rintro ⟨host, hnames, hform | hstrays⟩
      · exact ⟨host, hnames, hform⟩
      · exact hcovered ⟨host, hnames, hstrays⟩
    · rintro ⟨host, hnames, hform⟩
      exact ⟨host, hnames, .inl hform⟩

/-- The rule for a host of another domain. -/
def otherDomain : IstioObject where
  kind := .destinationRule
  name := "web"
  ns := "shop"
  spec := .record [("host", .text "web.shop.svcs.example")]

theorem otherDomain_refers : otherDomain.refersToService "web" "shop" = true ∧
    ¬∃ host, otherDomain.Names host ∧ Host.IsFormOf "web" "shop" host := by
  refine ⟨by decide +kernel, ?_⟩
  rintro ⟨host, hnames, hform⟩
  have hhost : host = "web.shop.svcs.example" := by
    have hmem := names_iff.1 hnames
    rw [show otherDomain.hosts = ["web.shop.svcs.example"] by decide +kernel] at hmem
    exact List.mem_singleton.1 hmem
  refine hform.not_strays ⟨'s', ".example".toList, by decide, ?_⟩
  rw [hhost]
  decide +kernel

end IstioObject

end WorkloadMap
