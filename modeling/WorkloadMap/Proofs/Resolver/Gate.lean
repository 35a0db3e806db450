import WorkloadMap.Proofs.Cluster.Address
import WorkloadMap.Proofs.Resolver.Calls
import WorkloadMap.Session

/-!
The gate of an operation. The server is asked for the namespace ahead of everything else, if it may
be asked for at all, and for nothing else unless that is there. Main statement: every operation is
gated on its namespace and confined to it, whatever the settings, the server and the cache.
-/
namespace WorkloadMap

namespace Resolver

variable {r : Resolver} {ns : String}

/-- A namespace is told only if it is there. -/
def foundNamespace (ns : String) : Option Namespace → Except Failure NamespaceInfo
  | none => .error (.notFound "Namespace" ns)
  | some n => .ok n.info

theorem fst_namespaceInfo (h : r.config.isAccessible ns = true) (p : Progress) :
    (r.namespaceInfo ns p).1 =
      (r.source.outcome (.namespaceInfo ns)).result.bind (foundNamespace ns) := by
  unfold namespaceInfo
  rw [h]
  rcases hwait : Run.wait (r.call (.namespaceInfo ns)) p with ⟨result, q⟩
  have hresult : (r.source.outcome (.namespaceInfo ns)).result = result := congrArg Prod.fst hwait
  rw [hresult]
  cases result with
  | error e => exact congrArg Prod.fst (Run.bind_apply_of_error hwait)
  | ok found =>
    refine (congrArg Prod.fst (Run.bind_apply_of_ok hwait)).trans ?_
    cases found <;> rfl

end Resolver

namespace Operation

variable {r : Resolver} {o : Operation}

/-- Where the namespace is not there, or not told, that is what the operation comes to. -/
theorem run_of_namespace_error (h : r.config.isAccessible o.ns = true) {e : Failure}
    (hread : (r.source.outcome (.namespaceInfo o.ns)).result.bind
      (Resolver.foundNamespace o.ns) = .error e) (p : Progress) :
    (o.run r p).1 = .error e ∧ (o.run r p).2.calls = p.calls ++ [.namespaceInfo o.ns] := by
  obtain ⟨q, hinfo⟩ : ∃ q, r.namespaceInfo o.ns p = (.error e, q) :=
    ⟨_, Prod.ext ((Resolver.fst_namespaceInfo h p).trans hread) rfl⟩
  have hcalls := Resolver.calls_namespaceInfo h p
  rw [hinfo] at hcalls
  rw [(readsFirst_run r o).apply_of_error hinfo]
  exact ⟨rfl, hcalls⟩

theorem calls_of_namespace_ok (h : r.config.isAccessible o.ns = true) {info : NamespaceInfo}
    (hread : (r.source.outcome (.namespaceInfo o.ns)).result.bind
      (Resolver.foundNamespace o.ns) = .ok info) (p : Progress) :
    ∃ later, (o.run r p).2.calls = p.calls ++ .namespaceInfo o.ns :: later ∧
      ∀ c ∈ later, c.ns? = some o.ns ∨ c = .syncText := by
  obtain ⟨q, hinfo⟩ : ∃ q, r.namespaceInfo o.ns p = (.ok info, q) :=
    ⟨_, Prod.ext ((Resolver.fst_namespaceInfo h p).trans hread) rfl⟩
  have hcalls := Resolver.calls_namespaceInfo h p
  rw [hinfo] at hcalls
  obtain ⟨later, hlater, hasked⟩ := (readsFirst_run r o).calls_of_ok hinfo
  refine ⟨later, ?_, fun c hc => (hasked c hc).ns?⟩
  rw [hlater, hcalls, List.append_assoc, List.singleton_append]

end Operation

namespace Session

variable {s : Session} {o : Operation} {ns : String}

/-- The read of a namespace. It is never left to the cache. -/
def namespaceRead (s : Session) (ns : String) : Outcome (Option Namespace) :=
  Client.get s.link .namespaces none ns Namespace.decode?

/-- Nothing is sent if no server is there or the name cannot be put into an address. -/
def namespaceRequests (s : Session) (ns : String) : List Request :=
  if s.link.isSome && ns != "" && Client.isAddress ns then [.get .namespaces none ns] else []

/-- The calls of an operation, those that the cache answers among them. -/
def calls (s : Session) (o : Operation) : List Call :=
  (o.run s.resolver { clock := s.clock, held := s.held }).2.calls

/-- The requests of some calls, those that the cache answers left out. -/
def requestsOf (s : Session) (calls : List Call) : List Request :=
  calls.filterMap fun c => (s.source.outcome c).request

theorem outcome_namespaceInfo (s : Session) (ns : String) :
    s.source.outcome (.namespaceInfo ns) = s.namespaceRead ns := by
  unfold source
  cases s.usesCache with
  | false => rfl
  | true => exact Source.outcome_throughCache_of_none rfl

theorem request_namespaceRead (s : Session) (ns : String) :
    (s.namespaceRead ns).request.toList = s.namespaceRequests ns := by
  have hnone : Client.isAddress "" = true := rfl
  unfold namespaceRead namespaceRequests
  rw [Client.request_get, Option.getD_none, hnone, Bool.true_and]
  split <;> rfl

theorem requestsOf_namespaceInfo (s : Session) (ns : String) (later : List Call) :
    s.requestsOf (.namespaceInfo ns :: later) = s.namespaceRequests ns ++ s.requestsOf later := by
  unfold requestsOf
  rw [List.filterMap_cons, outcome_namespaceInfo, ← request_namespaceRead]
  cases (s.namespaceRead ns).request <;> rfl

theorem namespaceRequests_of_ok {found : Option Namespace}
    (h : (s.namespaceRead ns).result = .ok found) :
    s.namespaceRequests ns = [.get .namespaces none ns] := by
  rw [← request_namespaceRead]
  exact congrArg Option.toList (Client.request_get_of_ok h)

theorem sends_of_source {c : Call} {q : Request} (h : (s.source.outcome c).request = some q) :
    c.Sends s.istiod q := by
  unfold source at h
  cases hcache : s.usesCache with
  | false =>
    rw [hcache] at h
    exact Source.sends_of_live h
  | true =>
    rw [hcache] at h
    exact Source.sends_of_live (Source.request_of_throughCache h)

theorem ns?_of_mem_requestsOf {calls : List Call} {ns : String} {q : Request}
    (h : ∀ c ∈ calls, c.ns? = some ns ∨ c = .syncText) (hq : q ∈ s.requestsOf calls) :
    q.ns? = some ns ∨ q = s.istiod.request := by
  obtain ⟨c, hc, hsent⟩ := List.mem_filterMap.1 hq
  obtain ⟨hns, hsync⟩ := sends_of_source hsent
  rcases h c hc with hcall | hcall
  · exact .inl (hns.trans hcall)
  · exact .inr (hsync hcall)

/-- Where the namespace is not there, or not told, its read is all that is done. -/
theorem stops_of_namespace_error (h : s.config.isAccessible o.ns = true) {e : Failure}
    (hread : (s.namespaceRead o.ns).result.bind (Resolver.foundNamespace o.ns) = .error e) :
    s.calls o = [.namespaceInfo o.ns] ∧
      (s.run fun r => o.run r).1 = ⟨s.namespaceRequests o.ns, .error e⟩ := by
  rw [← outcome_namespaceInfo] at hread
  obtain ⟨hresult, hcalls⟩ := Operation.run_of_namespace_error (r := s.resolver) h hread
    { clock := s.clock, held := s.held }
  rw [List.nil_append] at hcalls
  refine ⟨hcalls, ?_⟩
  have hrequests : s.requestsOf (s.calls o) = s.namespaceRequests o.ns := by
    rw [calls, hcalls, requestsOf_namespaceInfo]
    exact List.append_nil _
  exact congrArg₂ Ran.mk hrequests hresult

/-- An operation asks for its namespace first, if that may be asked for, and for nothing else if it
is not there. Whatever is asked for later, of the cache or of the server, is about that namespace,
but for the sync states. -/
structure IsGated (s : Session) (o : Operation) : Prop where
  closed : s.config.isAccessible o.ns = false →
    s.calls o = [] ∧ s.run (fun r => o.run r) = (⟨[], .error (.notAccessible o.ns)⟩, s)
  unread : s.config.isAccessible o.ns = true →
    ∀ e, (s.namespaceRead o.ns).result = .error e → s.calls o = [.namespaceInfo o.ns] ∧
      (s.run fun r => o.run r).1 = ⟨s.namespaceRequests o.ns, .error e⟩
  missing : s.config.isAccessible o.ns = true →
    (s.namespaceRead o.ns).result = .ok none → s.calls o = [.namespaceInfo o.ns] ∧
      (s.run fun r => o.run r).1 =
        ⟨[.get .namespaces none o.ns], .error (.notFound "Namespace" o.ns)⟩
  confined : s.config.isAccessible o.ns = true →
    ∀ n, (s.namespaceRead o.ns).result = .ok (some n) → ∃ calls requests,
      s.calls o = .namespaceInfo o.ns :: calls ∧
      (∀ c ∈ calls, c.ns? = some o.ns ∨ c = .syncText) ∧
      (s.run fun r => o.run r).1.requests = .get .namespaces none o.ns :: requests ∧
      ∀ q ∈ requests, q.ns? = some o.ns ∨ q = s.istiod.request

theorem isGated (s : Session) (o : Operation) : s.IsGated o where
  closed haccessible := by
    have hrun : ∀ p, o.run s.resolver p = (.error (.notAccessible o.ns), p) :=
      Operation.run_of_not_accessible (r := s.resolver) haccessible
    refine ⟨congrArg (·.2.calls) (hrun _), ?_⟩
    unfold run
    dsimp only
    rw [hrun]
    rfl
  unread haccessible e hread := stops_of_namespace_error haccessible (by rw [hread]; rfl)
  missing haccessible hread := by
    rw [← namespaceRequests_of_ok hread]
    exact stops_of_namespace_error haccessible (by rw [hread]; rfl)
  confined haccessible n hread := by
    have hfound : (s.source.outcome (.namespaceInfo o.ns)).result.bind
        (Resolver.foundNamespace o.ns) = .ok n.info := by
      rw [outcome_namespaceInfo, hread]
      rfl
    obtain ⟨later, hcalls, hconfined⟩ := Operation.calls_of_namespace_ok (r := s.resolver)
      haccessible hfound { clock := s.clock, held := s.held }
    rw [List.nil_append] at hcalls
    refine ⟨later, s.requestsOf later, hcalls, hconfined, ?_, fun q hq =>
      ns?_of_mem_requestsOf hconfined hq⟩
    have hrequests : s.requestsOf (s.calls o) =
        .get .namespaces none o.ns :: s.requestsOf later := by
      rw [calls, hcalls, requestsOf_namespaceInfo, namespaceRequests_of_ok hread]
      rfl
    exact hrequests

end Session

end WorkloadMap
