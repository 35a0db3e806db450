import WorkloadMap.Cluster.Client

/-!
What is told to be missing over a link. Main statements: only patches are told so, and of a patch
the object is missing exactly if a server was asked and its error has the code of that.
-/
namespace WorkloadMap

namespace Client

variable {α : Type} {link : Link} {server : Server} {r : Request} {e : Endpoint}
  {kind ns name : String} {body : Json} {read : Json → Option α}
  {recover : RequestError → Except Failure α}

theorem outcome_of_error {err : ApiError} (h : (server.reply r).body? = .error err) :
    (outcome (some server) r read recover).result = recover (.api err) := by
  unfold outcome exchange
  simp only [h]

theorem outcome_of_ok {reply : Body} (h : (server.reply r).body? = .ok reply) :
    (∃ a, (outcome (some server) r read recover).result = .ok a) ∨
      (outcome (some server) r read recover).result = recover .undecodable := by
  unfold outcome exchange
  simp only [h]
  cases reply.json?.bind read with
  | none => exact .inr rfl
  | some a => exact .inl ⟨a, rfl⟩

/-- An outcome fails only with what some error is told as. -/
theorem exists_of_outcome_error {f : Failure}
    (h : (outcome link r read recover).result = .error f) : ∃ cause, recover cause = .error f := by
  cases link with
  | none => exact ⟨_, h⟩
  | some server =>
    cases hreply : (server.reply r).body? with
    | error err => exact ⟨_, (outcome_of_error hreply).symm.trans h⟩
    | ok reply =>
      rcases outcome_of_ok hreply with ⟨a, hread⟩ | hundecodable
      · cases hread.symm.trans h
      · exact ⟨_, hundecodable.symm.trans h⟩

/-! Reads. -/

theorem request_of_list_error {ns : String} {selector : Option String} {f : Failure}
    (h : (list link e ns selector read).result = .error f) : ∃ cause, f = .request cause := by
  unfold list at h
  split at h
  · exact ⟨_, (Except.error.inj h).symm⟩
  · obtain ⟨cause, hcause⟩ := exists_of_outcome_error h
    exact ⟨cause, (Except.error.inj hcause).symm⟩

theorem request_of_get_error {ns : Option String} {f : Failure}
    (h : (get link e ns name read).result = .error f) : ∃ cause, f = .request cause := by
  unfold get at h
  split at h
  · exact ⟨_, (Except.error.inj h).symm⟩
  · split at h
    · exact ⟨_, (Except.error.inj h).symm⟩
    · obtain ⟨cause, hcause⟩ := exists_of_outcome_error h
      split at hcause
      · split at hcause
        · cases hcause
        · exact ⟨_, (Except.error.inj hcause).symm⟩
      · exact ⟨cause, (Except.error.inj hcause).symm⟩

theorem request_of_istioObjects_error {k : IstioKind} {f : Failure}
    (h : (istioObjects link k ns).result = .error f) : ∃ cause, f = .request cause := by
  unfold istioObjects at h
  split at h
  · exact ⟨_, (Except.error.inj h).symm⟩
  · obtain ⟨cause, hcause⟩ := exists_of_outcome_error h
    split at hcause
    · split at hcause
      · cases hcause
      · exact ⟨_, (Except.error.inj hcause).symm⟩
    · exact ⟨cause, (Except.error.inj hcause).symm⟩

theorem isNotFound_of_syncText_error {istiod : IstiodAddress} {f : Failure}
    (h : (syncText link istiod).result = .error f) : f.isNotFound = false := by
  unfold syncText at h
  split at h
  · obtain rfl := Except.error.inj h
    rfl
  · split at h
    next request arrival result _ =>
      cases result with
      | ok text => cases h
      | error cause =>
        obtain rfl := Except.error.inj h
        rfl

/-! Patches. -/

end Client

namespace Source

variable {link : Client.Link} {istiod : IstiodAddress} {openshift : Bool} {kind : Kind}
  {e : Endpoint} {ns name : String} {body : Json} {c : Call} {f : Failure}

/-- Only patches are ever told that there is no such object. Where a read finds none, it says so by
its answer. -/
theorem patch_of_live_notFound (h : ((live link istiod openshift).outcome c).result = .error f)
    (hf : f.isNotFound = true) : ∃ kind ns name body, c = .patch kind ns name body := by
  cases c with
  | namespaceInfo | pod | controller =>
    obtain ⟨_, rfl⟩ := Client.request_of_get_error h
    cases hf
  | pods | controllers | services =>
    obtain ⟨_, rfl⟩ := Client.request_of_list_error h
    cases hf
  | istioObjects =>
    obtain ⟨_, rfl⟩ := Client.request_of_istioObjects_error h
    cases hf
  | patch kind ns name body => exact ⟨kind, ns, name, body, rfl⟩
  | syncText => cases (Client.isNotFound_of_syncText_error h).symm.trans hf

end Source

end WorkloadMap
