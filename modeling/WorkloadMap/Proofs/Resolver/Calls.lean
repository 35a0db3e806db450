import WorkloadMap.Proofs.Resolver.Fetch
import WorkloadMap.Proofs.Resolver.Run
import WorkloadMap.Resolver.Operation

/-!
The calls of a run, whatever it comes to. A batch makes the calls of its parts, and a run adds those
of its steps to the calls before it. Main statement: an operation reads its namespace first. Then it
asks for its objects, and beside them for nothing of the kinds that workloads have.
-/
namespace WorkloadMap

namespace Batch

variable {α β : Type}

@[simp] theorem calls_done (a : α) : (done a).calls = [] := rfl

@[simp] theorem calls_map (f : α → β) (x : Batch α) : (x.map f).calls = x.calls := rfl

@[simp] theorem calls_both (x : Batch α) (y : Batch β) :
    (x.both y).calls = x.calls ++ y.calls := by
  unfold both
  split
  all_goals try split
  all_goals rfl

theorem mem_calls_both {x : Batch α} {y : Batch β} {c : Call} :
    c ∈ (x.both y).calls ↔ c ∈ x.calls ∨ c ∈ y.calls := by
  rw [calls_both, List.mem_append]

theorem mem_calls_all {ι : Type} {f : ι → Batch α} {is : List ι} {c : Call} :
    c ∈ (all (is.map f)).calls ↔ ∃ i ∈ is, c ∈ (f i).calls := by
  induction is with
  | nil => simp [all]
  | cons i is ih => simp [all, ih]

theorem calls_settled (xs : List (Batch α)) : (settled xs).calls = xs.flatMap calls := by
  induction xs with
  | nil => rfl
  | cons x xs ih => exact congrArg (x.calls ++ ·) ih

theorem mem_calls_settled {ι : Type} {f : ι → Batch α} {is : List ι} {c : Call} :
    c ∈ (settled (is.map f)).calls ↔ ∃ i ∈ is, c ∈ (f i).calls := by
  simp [calls_settled]

end Batch

namespace Run

variable {α β : Type} {P : Call → Prop} {x : Run α} {f : α → Run β} {b : Batch α}

/-- Whatever the run comes to, each call that it adds is such a call. -/
def Makes (P : Call → Prop) (x : Run α) : Prop :=
  ∀ p, ∃ calls, (x p).2.calls = p.calls ++ calls ∧ ∀ c ∈ calls, P c

theorem Makes.mono {Q : Call → Prop} (h : Makes P x) (hPQ : ∀ c, P c → Q c) : Makes Q x := by
  intro p
  obtain ⟨calls, hcalls, hall⟩ := h p
  exact ⟨calls, hcalls, fun c hc => hPQ c (hall c hc)⟩

theorem Makes.pure (a : α) : Makes P (pure a : Run α) :=
  fun p => ⟨[], (List.append_nil p.calls).symm, by simp⟩

theorem Makes.throw (e : Failure) : Makes P (throw e : Run α) :=
  fun p => ⟨[], (List.append_nil p.calls).symm, by simp⟩

theorem Makes.bind (hx : Makes P x) (hf : ∀ a, Makes P (f a)) : Makes P (x >>= f) := by
  intro p
  obtain ⟨calls, hcalls, hall⟩ := hx p
  rcases hrun : x p with ⟨result, p₁⟩
  rw [hrun] at hcalls
  cases result with
  | error e =>
    rw [bind_apply_of_error hrun]
    exact ⟨calls, hcalls, hall⟩
  | ok a =>
    obtain ⟨more, hmore, hrest⟩ := hf a p₁
    refine ⟨calls ++ more, ?_, fun c hc => ?_⟩
    · rw [bind_apply_of_ok hrun, hmore, hcalls, List.append_assoc]
    · rcases List.mem_append.1 hc with hc | hc
      · exact hall c hc
      · exact hrest c hc

theorem Makes.wait (h : ∀ c ∈ b.calls, P c) : Makes P (wait b) :=
  fun _ => ⟨b.calls, rfl, h⟩

theorem calls_waitWithin {limit : Nat} (p : Progress) :
    (waitWithin limit b p).2.calls = p.calls ++ b.calls := by
  unfold waitWithin
  split <;> rfl

theorem Makes.waitWithin {limit : Nat} (h : ∀ c ∈ b.calls, P c) : Makes P (waitWithin limit b) :=
  fun p => ⟨b.calls, calls_waitWithin p, h⟩

theorem mem_calls_bind {c : Call} {p : Progress} (hf : ∀ a, Makes (fun _ => True) (f a))
    (hc : c ∈ (x p).2.calls) : c ∈ ((x >>= f) p).2.calls := by
  rcases hrun : x p with ⟨result, p₁⟩
  rw [hrun] at hc
  cases result with
  | error e =>
    rw [bind_apply_of_error hrun]
    exact hc
  | ok a =>
    obtain ⟨calls, hcalls, _⟩ := hf a p₁
    rw [bind_apply_of_ok hrun, hcalls]
    exact List.mem_append_left calls hc

theorem mem_calls_waitWithin {c : Call} {limit : Nat} (hc : c ∈ b.calls) (p : Progress) :
    c ∈ (waitWithin limit b p).2.calls := by
  rw [calls_waitWithin]
  exact List.mem_append_right p.calls hc

/-- What makes no calls of its own adds none to those before it. -/
theorem calls_bind (hf : ∀ a p, (f a p).2.calls = p.calls) (p : Progress) :
    ((x >>= f) p).2.calls = (x p).2.calls := by
  rcases hx : x p with ⟨result, q⟩
  cases result with
  | error e => rw [bind_apply_of_error hx]
  | ok a => rw [bind_apply_of_ok hx, hf]

theorem Makes.mapM {g : α → Run β} (h : ∀ a, Makes P (g a)) (as : List α) :
    Makes P (as.mapM g) := by
  induction as with
  | nil => exact .pure []
  | cons a as ih =>
    rw [List.mapM_cons]
    exact (h a).bind fun b => ih.bind fun bs => .pure (b :: bs)

theorem Makes.ofExcept (result : Except Failure α) :
    Makes P (MonadExcept.ofExcept result : Run α) := by
  cases result with
  | error e => exact .throw e
  | ok a => exact .pure a

end Run

namespace Resolver

variable {α : Type} {r : Resolver} {ns name : String} {hint : Option Kind} {c : Call}
  {P : Call → Prop}

@[simp] theorem calls_call (c : Call) : (r.call c).calls = [c] := rfl

theorem mem_calls_listIf {wanted : Bool} {k : ControllerKind} :
    c ∈ (r.listIf wanted k ns).calls ↔ wanted = true ∧ c = .controllers k ns := by
  unfold listIf
  cases wanted <;> simp

theorem mem_calls_getIf {wanted : Bool} {k : ControllerKind} :
    c ∈ (r.getIf wanted k ns name).calls ↔ wanted = true ∧ c = .controller k ns name := by
  have hcalls : (r.getIf true k ns name).calls = [.controller k ns name] := rfl
  cases wanted with
  | false => simp [getIf]
  | true => simp [hcalls]

theorem mem_calls_resources {pods : Batch (List Pod)}
    {controllers : ControllerKind → Batch (List Controller)} :
    c ∈ (resources pods controllers).calls ↔
      c ∈ pods.calls ∨ ∃ k, c ∈ (controllers k).calls := by
  unfold resources
  rw [Batch.calls_map, Batch.mem_calls_both, Batch.mem_calls_all]
  simp [mem_fetchOrder]

theorem mem_calls_candidates {k : ControllerKind} :
    c ∈ (r.candidates ns name hint k).calls ↔ r.seeks hint k = true ∧
      c = if k ∈ ControllerKind.roots then .controller k ns name else .controllers k ns := by
  unfold candidates
  split
  · exact mem_calls_getIf
  · exact mem_calls_listIf

/-- Beside the pods, the fetch for one name asks for the kinds that are sought, and for roots by
that name. -/
theorem mem_calls_workloadResources :
    c ∈ (r.workloadResources ns name hint).calls ↔ c = .pods ns none ∨
      ∃ k, r.seeks hint k = true ∧
        c = if k ∈ ControllerKind.roots then .controller k ns name else .controllers k ns := by
  rw [workloadResources_eq]
  refine mem_calls_resources.trans (or_congr ?_ (exists_congr fun k => mem_calls_candidates))
  exact List.mem_singleton

theorem kind?_of_mem_workloadResources (h : c ∈ (r.workloadResources ns name hint).calls) :
    c.kind? = some .pod ∨ ∃ k, c.kind? = some (.controller k) ∧ r.seeks hint k = true := by
  rcases mem_calls_workloadResources.1 h with rfl | ⟨k, hsought, rfl⟩
  · exact .inl rfl
  · refine .inr ⟨k, ?_, hsought⟩
    split <;> rfl

theorem makes_namespaceInfo (h : P (.namespaceInfo ns)) : Run.Makes P (r.namespaceInfo ns) := by
  unfold Resolver.namespaceInfo
  split
  · exact .throw _
  · refine (Run.Makes.wait (by simpa using h)).bind fun found => ?_
    cases found with
    | none => exact .throw _
    | some n => exact .pure _

theorem calls_namespaceInfo (h : r.config.isAccessible ns = true) (p : Progress) :
    (r.namespaceInfo ns p).2.calls = p.calls ++ [.namespaceInfo ns] := by
  unfold namespaceInfo
  rw [h]
  refine Run.calls_bind (fun found _ => ?_) p
  cases found with
  | none => rfl
  | some n => rfl

theorem makes_found (resources : Resources) : Run.Makes P (r.found resources name hint) := by
  unfold found
  split
  · exact .pure _
  · exact .throw _

theorem makes_syncStatus (h : P .syncText) (pod : String) :
    Run.Makes P (liftM (r.syncStatus ns pod).run : Run (Except Failure (Option SyncStatus))) := by
  intro p
  by_cases hasked : (SnapshotRead.at r.ttl p.clock p.held (r.source.outcome .syncText)).asked = true
  · refine ⟨[.syncText], if_pos hasked, by simpa using h⟩
  · refine ⟨[], (if_neg hasked).trans (List.append_nil _).symm, by simp⟩

theorem makes_attachProxyStatus (h : P .syncText) (w : Workload) :
    Run.Makes P (w.attachProxyStatus fun pod =>
      (liftM (r.syncStatus ns pod).run : Run (Except Failure (Option SyncStatus)))) := by
  unfold Workload.attachProxyStatus
  refine (Run.Makes.mapM (fun pod => ?_) _).bind fun pods => .pure _
  unfold PodSummary.attachProxyStatus
  split
  · exact .pure _
  · refine (makes_syncStatus h _).bind fun answer => ?_
    cases answer with
    | ok status => exact .pure _
    | error e => exact .pure _

/-- A run that reads a namespace, and goes on with such calls if it is there. -/
def ReadsFirst (r : Resolver) (ns : String) (P : Call → Prop) (x : Run α) : Prop :=
  ∃ rest : NamespaceInfo → Run α, x = r.namespaceInfo ns >>= rest ∧ ∀ info, Run.Makes P (rest info)

namespace ReadsFirst

variable {x : Run α} {p q : Progress}

theorem makes (h : r.ReadsFirst ns P x) (hnamespace : P (.namespaceInfo ns)) : Run.Makes P x := by
  obtain ⟨rest, rfl, hrest⟩ := h
  exact (makes_namespaceInfo hnamespace).bind hrest

theorem mono {Q : Call → Prop} (h : r.ReadsFirst ns P x) (hPQ : ∀ c, P c → Q c) :
    r.ReadsFirst ns Q x := by
  obtain ⟨rest, hx, hrest⟩ := h
  exact ⟨rest, hx, fun info => (hrest info).mono hPQ⟩

theorem apply_of_error {e : Failure} (h : r.ReadsFirst ns P x)
    (hread : r.namespaceInfo ns p = (.error e, q)) : x p = (.error e, q) := by
  obtain ⟨rest, rfl, _⟩ := h
  exact Run.bind_apply_of_error hread

theorem calls_of_ok {info : NamespaceInfo} (h : r.ReadsFirst ns P x)
    (hread : r.namespaceInfo ns p = (.ok info, q)) :
    ∃ later, (x p).2.calls = q.calls ++ later ∧ ∀ c ∈ later, P c := by
  obtain ⟨rest, rfl, hrest⟩ := h
  rw [Run.bind_apply_of_ok hread]
  exact hrest info q

end ReadsFirst

theorem readsFirst_getWorkload {withServices : Bool} (hservices : P (.services ns))
    (hstatus : P .syncText) (hfetch : ∀ c ∈ (r.workloadResources ns name hint).calls, P c) :
    r.ReadsFirst ns P (r.getWorkload ns name hint withServices) := by
  refine ⟨_, rfl, fun _ => (Run.Makes.waitWithin fun c hc => ?_).bind ?_⟩
  · rcases Batch.mem_calls_both.1 hc with hc | hc
    · exact hfetch c hc
    · have hcalls : (r.services withServices ns).calls ⊆ [.services ns] := by
        cases withServices <;> simp [Resolver.services]
      rw [List.mem_singleton.1 (hcalls hc)]
      exact hservices
  · rintro ⟨resources, services⟩
    refine (makes_found resources).bind fun w => ?_
    exact (makes_attachProxyStatus hstatus w).bind fun w => .pure _

theorem makes_getWorkload {withServices : Bool} (hplain : ∀ c, c.kind? = none → P c)
    (hfetch : ∀ c ∈ (r.workloadResources ns name hint).calls, P c) :
    Run.Makes P (r.getWorkload ns name hint withServices) :=
  (readsFirst_getWorkload (hplain _ rfl) (hplain _ rfl) hfetch).makes (hplain _ rfl)

/-- Where the namespace is told, everything that is sought is asked for, whatever comes of it. -/
theorem mem_calls_getWorkload {withServices : Bool} {info : NamespaceInfo} {p q : Progress}
    (hinfo : r.namespaceInfo ns p = (.ok info, q))
    (hc : c ∈ (r.workloadResources ns name hint).calls) :
    c ∈ (r.getWorkload ns name hint withServices p).2.calls := by
  unfold getWorkload
  rw [Run.bind_apply_of_ok hinfo]
  refine Run.mem_calls_bind ?_ (Run.mem_calls_waitWithin (Batch.mem_calls_both.2 (.inl hc)) q)
  rintro ⟨resources, services⟩
  refine (makes_found resources).bind fun w => ?_
  exact (makes_attachProxyStatus trivial w).bind fun w => .pure _

theorem mem_calls_namespaceResources {selector : Option String} :
    c ∈ (r.namespaceResources ns selector).calls ↔
      c = .pods ns selector ∨ ∃ k, r.fetches k = true ∧ c = .controllers k ns := by
  refine mem_calls_resources.trans (or_congr ?_ (exists_congr fun k => mem_calls_listIf))
  exact List.mem_singleton

theorem exists_kind_of_mem_linked {link : Bool} {kinds : List IstioKind}
    (h : c ∈ (r.linked link ns kinds).calls) : ∃ k, c = .istioObjects k ns := by
  cases link with
  | false => simp [linked] at h
  | true =>
    have hcalls : c ∈ (Batch.all (kinds.map fun k => r.call (.istioObjects k ns))).calls := h
    obtain ⟨k, _, hc⟩ := Batch.mem_calls_all.1 hcalls
    exact ⟨k, List.mem_singleton.1 hc⟩

end Resolver

namespace Operation

variable {r : Resolver} {c : Call} {ns : String} {only : Option String}

/-- The calls that an operation makes for objects of the kinds that workloads have. -/
def objectCalls (r : Resolver) : Operation → List Call
  | .list ns _ => (r.namespaceResources ns none).calls
  | .get ns name hint _ => (r.workloadResources ns name hint).calls
  | .update ns name hint patch => (r.patchTargets hint).map fun kind => .patch kind ns name patch
  | .pods ns selector => [.pods ns selector]
  | .pod ns name => [.pod ns name]
  | .appName ns name => (r.workloadResources ns name none).calls
  | .apps ns _ =>
    (r.namespaceResources ns (some (Resolver.appSelector r.config.appLabel none))).calls
  | .app ns name =>
    (r.namespaceResources ns (some (Resolver.appSelector r.config.appLabel (some name)))).calls

theorem ns?_of_mem_objectCalls {o : Operation} (h : c ∈ o.objectCalls r) : c.ns? = some o.ns := by
  have hlisted : ∀ ns selector, c ∈ (r.namespaceResources ns selector).calls →
      c.ns? = some ns := by
    intro ns selector hc
    rcases Resolver.mem_calls_namespaceResources.1 hc with rfl | ⟨k, _, rfl⟩ <;> rfl
  have hsought : ∀ ns name hint, c ∈ (r.workloadResources ns name hint).calls →
      c.ns? = some ns := by
    intro ns name hint hc
    rcases Resolver.mem_calls_workloadResources.1 hc with rfl | ⟨k, _, rfl⟩
    · rfl
    · split <;> rfl
  cases o with
  | list | apps | app => exact hlisted _ _ h
  | get | appName => exact hsought _ _ _ h
  | update ns name hint patch =>
    obtain ⟨kind, _, rfl⟩ := List.mem_map.1 h
    rfl
  | pods | pod => rw [List.mem_singleton.1 h]; rfl

theorem mem_calls_appMembers (h : c ∈ (r.appMembers ns only).calls) : c = .services ns ∨
    c ∈ (r.namespaceResources ns (some (Resolver.appSelector r.config.appLabel only))).calls := by
  rcases Batch.mem_calls_both.1 h with hservices | hresources
  · exact .inl (List.mem_singleton.1 hservices)
  · exact .inr hresources

/-- What an operation may ask for once its namespace was read. -/
inductive Asks (r : Resolver) (o : Operation) : Call → Prop where
  | object {c : Call} (h : c ∈ o.objectCalls r) : Asks r o c
  | services : Asks r o (.services o.ns)
  | istioObjects (k : IstioKind) : Asks r o (.istioObjects k o.ns)
  | syncText : Asks r o .syncText

theorem Asks.kind? {o : Operation} (h : o.Asks r c) : c.kind? = none ∨ c ∈ o.objectCalls r := by
  cases h with
  | object h => exact .inr h
  | services | istioObjects | syncText => exact .inl rfl

theorem Asks.ns? {o : Operation} (h : o.Asks r c) : c.ns? = some o.ns ∨ c = .syncText := by
  cases h with
  | object h => exact .inl (ns?_of_mem_objectCalls h)
  | services | istioObjects => exact .inl rfl
  | syncText => exact .inr rfl

theorem readsFirst_run (r : Resolver) (o : Operation) :
    r.ReadsFirst o.ns (o.Asks r) (o.run r) := by
  cases o with
  | list ns link =>
    refine ⟨_, rfl, fun _ => (Run.Makes.waitWithin fun c hc => ?_).bind fun _ => .pure _⟩
    rcases Batch.mem_calls_both.1 hc with hresources | hlinked
    · exact .object hresources
    · obtain ⟨k, rfl⟩ := Resolver.exists_kind_of_mem_linked hlinked
      exact .istioObjects k
  | get ns name hint included =>
    exact Resolver.readsFirst_getWorkload .services .syncText fun c hc => .object hc
  | update ns name hint patch =>
    refine ⟨_, rfl, fun _ => (Run.Makes.waitWithin fun c hc => ?_).bind fun _ => .ofExcept _⟩
    obtain ⟨kind, hkind, hc⟩ := Batch.mem_calls_settled.1 hc
    exact .object (List.mem_map.2 ⟨kind, hkind, (List.mem_singleton.1 hc).symm⟩)
  | pods ns selector =>
    exact ⟨_, rfl, fun _ => (Run.Makes.waitWithin fun c hc => .object hc).bind fun _ => .pure _⟩
  | pod ns name =>
    refine ⟨_, rfl, fun _ => (Run.Makes.waitWithin fun c hc => .object hc).bind ?_⟩
    rintro (_ | pod)
    · exact .throw _
    · exact .pure _
  | appName ns name =>
    refine ⟨_, rfl, fun _ => (Run.Makes.waitWithin fun c hc => .object hc).bind ?_⟩
    exact fun resources => (Resolver.makes_found resources).bind fun _ => .pure _
  | apps ns link =>
    refine ⟨_, rfl, fun _ => (Run.Makes.waitWithin fun c hc => ?_).bind fun _ => .pure _⟩
    rcases Batch.mem_calls_both.1 hc with hmembers | hlinked
    · rcases mem_calls_appMembers hmembers with rfl | hobject
      · exact .services
      · exact .object hobject
    · obtain ⟨k, rfl⟩ := (Batch.mem_calls_both.1 hlinked).elim
        Resolver.exists_kind_of_mem_linked Resolver.exists_kind_of_mem_linked
      exact .istioObjects k
  | app ns name =>
    refine ⟨_, rfl, fun _ => (Run.Makes.waitWithin fun c hc => ?_).bind fun apps => ?_⟩
    · rcases mem_calls_appMembers hc with rfl | hobject
      · exact .services
      · exact .object hobject
    · cases apps.find? name with
      | none => exact .throw _
      | some members => exact .pure _

/-- An operation asks for its objects, and beside them for nothing that is of such a kind. -/
theorem makes_run (r : Resolver) (o : Operation) :
    Run.Makes (fun c => c.kind? = none ∨ c ∈ o.objectCalls r) (o.run r) :=
  ((readsFirst_run r o).mono fun _ h => h.kind?).makes (.inl rfl)

/-- Nothing is asked about a namespace that may not be read. -/
theorem run_of_not_accessible {o : Operation} (h : r.config.isAccessible o.ns = false)
    (p : Progress) : o.run r p = (.error (.notAccessible o.ns), p) := by
  refine (readsFirst_run r o).apply_of_error ?_
  unfold Resolver.namespaceInfo
  rw [h]
  rfl

end Operation

end WorkloadMap
