import WorkloadMap.Cache.Source
import WorkloadMap.Cluster.Client

/-!
Where requests go. Main statements: over a link a call makes one request at most, which is about the
namespace of the call, and a cache makes none of its own.
-/
namespace WorkloadMap

/-- The namespace that a request is about: the one it is made in, or the one it asks for. -/
def Request.ns? : Request → Option String
  | .list _ ns _ | .get _ (some ns) _ | .patch _ ns _ _ => some ns
  | .get e none name => if e = .namespaces then some name else none
  | .probe | .sync .. => none

def IstiodAddress.request (istiod : IstiodAddress) : Request :=
  .sync istiod.ns istiod.service istiod.port

/-- A request that may be made for a call. -/
def Call.Sends (istiod : IstiodAddress) (c : Call) (q : Request) : Prop :=
  q.ns? = c.ns? ∧ (c = .syncText → q = istiod.request)

theorem Call.Sends.of_ns {istiod : IstiodAddress} {c : Call} {q : Request} {ns : String}
    (hcall : c.ns? = some ns) (hrequest : q.ns? = some ns) : c.Sends istiod q := by
  refine ⟨hrequest.trans hcall.symm, ?_⟩
  rintro rfl
  cases hcall

namespace Client

variable {α : Type} {link : Link} {e : Endpoint} {q r : Request} {ns name kind : String}
  {body : Json} {read : Json → Option α} {recover : RequestError → Except Failure α}

theorem request_outcome : (outcome link r read recover).request = link.map fun _ => r := by
  cases link <;> rfl

theorem eq_of_request_outcome (h : (outcome link r read recover).request = some q) : q = r := by
  rw [request_outcome] at h
  obtain ⟨_, _, hq⟩ := Option.map_eq_some_iff.1 h
  exact hq.symm

theorem eq_of_request_list {selector : Option String}
    (h : (list link e ns selector read).request = some q) : q = .list e ns selector := by
  unfold list at h
  split at h
  · cases h
  · exact eq_of_request_outcome h

theorem eq_of_request_patch (h : (patch link e kind ns name body read).request = some q) :
    q = .patch e ns name body := by
  unfold patch at h
  split at h
  · cases h
  · split at h
    · cases h
    · exact eq_of_request_outcome h

theorem eq_of_request_istioObjects {k : IstioKind}
    (h : (istioObjects link k ns).request = some q) : q = .list k.endpoint ns none := by
  unfold istioObjects at h
  split at h
  · cases h
  · exact eq_of_request_outcome h

theorem eq_of_request_syncText {istiod : IstiodAddress}
    (h : (syncText link istiod).request = some q) : q = istiod.request := by
  unfold syncText at h
  split at h
  · cases h
  · cases link with
    | none => cases h
    | some server => exact (Option.some.inj h).symm

/-- A read is sent unless no server is there or its name cannot be put into an address. -/
theorem request_get {ns : Option String} : (get link e ns name read).request =
    if link.isSome && name != "" && (isAddress (ns.getD "") && isAddress name) then
      some (.get e ns name) else none := by
  unfold get
  by_cases hname : name = ""
  · simp [hname, refused]
  · cases haddress : isAddress (ns.getD "") && isAddress name with
    | false => simp [hname, refused]
    | true =>
      simp only [if_neg hname, Bool.not_true, Bool.false_eq_true, if_false, request_outcome]
      cases link <;> simp [hname]

theorem eq_of_request_get {ns : Option String}
    (h : (get link e ns name read).request = some q) : q = .get e ns name := by
  rw [request_get] at h
  split at h
  · exact (Option.some.inj h).symm
  · cases h

/-- What was read was asked for. -/
theorem request_get_of_ok {ns : Option String} {found : Option α}
    (h : (get link e ns name read).result = .ok found) :
    (get link e ns name read).request = some (.get e ns name) := by
  unfold get at h ⊢
  by_cases hname : name = ""
  · rw [if_pos hname] at h
    cases h
  · rw [if_neg hname] at h ⊢
    split at h
    · cases h
    next haddress =>
      rw [if_neg haddress, request_outcome]
      cases link with
      | none => cases h
      | some server => rfl

end Client

namespace Source

variable {c : Call} {q : Request} {istiod : IstiodAddress}

theorem sends_of_live {link : Client.Link} {openshift : Bool}
    (h : ((Source.live link istiod openshift).outcome c).request = some q) : c.Sends istiod q := by
  cases c with
  | namespaceInfo ns =>
    obtain rfl := Client.eq_of_request_get h
    exact .of_ns rfl rfl
  | pods ns selector =>
    obtain rfl := Client.eq_of_request_list h
    exact .of_ns rfl rfl
  | pod ns name =>
    obtain rfl := Client.eq_of_request_get h
    exact .of_ns rfl rfl
  | controllers k ns =>
    obtain rfl := Client.eq_of_request_list h
    exact .of_ns rfl rfl
  | controller k ns name =>
    obtain rfl := Client.eq_of_request_get h
    exact .of_ns rfl rfl
  | services ns =>
    obtain rfl := Client.eq_of_request_list h
    exact .of_ns rfl rfl
  | istioObjects k ns =>
    obtain rfl := Client.eq_of_request_istioObjects h
    exact .of_ns rfl rfl
  | patch kind ns name body =>
    cases kind with
    | controller k =>
      obtain rfl := Client.eq_of_request_patch h
      exact .of_ns rfl rfl
    | pod =>
      obtain rfl := Client.eq_of_request_patch h
      exact .of_ns rfl rfl
    | custom unknown _ => cases h
  | syncText =>
    obtain rfl := Client.eq_of_request_syncText h
    exact ⟨rfl, fun _ => rfl⟩

variable {live : Source} {cache : Cache}

theorem outcome_throughCache_of_none (h : cache.answer? c = none) :
    (live.throughCache cache).outcome c = live.outcome c := by
  simp only [throughCache, h, ite_self]

theorem outcome_throughCache_of_some {ns : String} {result : Except Failure c.Answer}
    (hserves : cache.serves ns = true) (hns : c.ns? = some ns)
    (h : cache.answer? c = some result) :
    (live.throughCache cache).outcome c = { result } := by
  simp only [throughCache, hns, Option.any_some, hserves, if_true, h]

/-- A cache makes no requests of its own. -/
theorem request_of_throughCache (h : ((live.throughCache cache).outcome c).request = some q) :
    (live.outcome c).request = some q := by
  unfold throughCache at h
  dsimp only at h
  split at h
  · cases h
  · exact h

end Source

end WorkloadMap
