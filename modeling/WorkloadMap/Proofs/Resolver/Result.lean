import WorkloadMap.Proofs.Resolver.Detail
import WorkloadMap.Proofs.Resolver.Gate
import WorkloadMap.Resolver.Apps

/-!
What listings come to, whatever was done before them. A listing waits for its namespace, then for
objects and links at once, and is told from what they give. Main statements: it depends on links
that are there in time by what they are alone, and on late ones by the end of its time.
-/
namespace WorkloadMap

namespace Batch

variable {α β : Type} {limit : Nat} {x : Batch α} {y : Batch β} {a : α} {b : β}

/-- What a batch comes to by the end of its time. -/
def within (limit : Nat) (x : Batch α) : Except Failure α :=
  if x.arrival.isWithin limit then x.result else .error (.timeout limit)

theorem Gives.within (h : x.Gives limit a) : x.within limit = .ok a :=
  (if_pos h.inTime).trans h.result

theorem Fails.within {e : Failure} (h : x.Fails limit e) : x.within limit = .error e :=
  (if_pos h.inTime).trans h.result

theorem Late.within (h : x.Late limit) : x.within limit = .error (.timeout limit) :=
  if_neg (Bool.not_eq_true _ ▸ h)

theorem gives_of_within (h : x.within limit = .ok a) : x.Gives limit a := by
  unfold Batch.within at h
  split at h
  next htime => exact ⟨h, htime⟩
  next => cases h

/-- What is there in time beside other calls adds itself to what they come to. -/
theorem Gives.within_both (h : y.Gives limit b) :
    (x.both y).within limit = (x.within limit).map (·, b) := by
  rcases x.gives_or_fails_or_late limit with ⟨a, ha⟩ | ⟨e, he⟩ | hlate
  · rw [(ha.both h).within, ha.within]
    rfl
  · have hboth : (x.both y).Fails limit e := by
      rw [both_of_error_ok he.result h.result]
      exact ⟨rfl, he.inTime⟩
    rw [hboth.within, he.within]
    rfl
  · have hboth : (x.both y).Late limit :=
      late_of_forall_not (fun _ hab => hab.of_both.1.not_late hlate)
        fun e he => he.of_both.elim (·.not_late hlate) (h.not_fails e)
    rw [hboth.within, hlate.within]
    rfl

/-- Beside what is late other calls come to no answer, but may fail before the time is over. -/
theorem Late.within_both (h : y.Late limit) :
    (x.both y).within limit = (x.within limit).bind fun _ => .error (.timeout limit) := by
  rcases x.gives_or_fails_or_late limit with ⟨a, ha⟩ | ⟨e, he⟩ | hlate
  · have hboth : (x.both y).Late limit :=
      late_of_forall_not (fun _ hab => hab.of_both.2.not_late h)
        fun e he => he.of_both.elim (ha.not_fails e) (·.not_late h)
    rw [hboth.within, ha.within]
    rfl
  · have hboth : (x.both y).Fails limit e := by
      cases hy : y.result with
      | ok b =>
        rw [both_of_error_ok he.result hy]
        exact ⟨rfl, he.inTime⟩
      | error e' =>
        have hfirst : ¬y.arrival.precedes x.arrival = true := fun hfirst =>
          Bool.noConfusion (h.symm.trans (Arrival.isWithin_of_precedes hfirst he.inTime))
        rw [both_of_errors he.result hy, if_neg hfirst]
        exact ⟨rfl, he.inTime⟩
    rw [hboth.within, he.within]
    rfl
  · have hboth : (x.both y).Late limit :=
      late_of_forall_not (fun _ hab => hab.of_both.1.not_late hlate)
        fun e he => he.of_both.elim (·.not_late hlate) (·.not_late h)
    rw [hboth.within, hlate.within]
    rfl

end Batch

namespace Run

variable {α β : Type} {x : Run α} {f : α → Run β} {g : α → Except Failure β} {limit : Nat}

/-- What a run comes to, if what follows its first part comes to the same whatever was done. -/
theorem fst_bind (hf : ∀ a p, (f a p).1 = g a) (p : Progress) :
    ((x >>= f) p).1 = (x p).1.bind g := by
  rcases hx : x p with ⟨result, q⟩
  cases result with
  | error e => rw [bind_apply_of_error hx]; rfl
  | ok a => rw [bind_apply_of_ok hx]; exact hf a q

theorem fst_waitWithin (b : Batch α) (p : Progress) :
    (waitWithin limit b p).1 = b.within limit := by
  unfold waitWithin Batch.within
  split <;> rfl

end Run

namespace Resolver

variable {α β γ : Type} {r : Resolver} {ns : String}

/-- What the read of a namespace comes to. -/
def namespaceResult (r : Resolver) (ns : String) : Except Failure NamespaceInfo :=
  if r.config.isAccessible ns then
    (r.source.outcome (.namespaceInfo ns)).result.bind (foundNamespace ns)
  else .error (.notAccessible ns)

theorem fst_namespaceInfo_eq (r : Resolver) (ns : String) (p : Progress) :
    (r.namespaceInfo ns p).1 = r.namespaceResult ns := by
  unfold namespaceResult
  split
  next h => exact fst_namespaceInfo h p
  next h =>
    unfold namespaceInfo
    rw [Bool.not_eq_true] at h
    rw [h]
    rfl

/-- What a listing comes to that is told from some objects and the Istio objects beside them. -/
def listing (r : Resolver) (ns : String) (x : Batch α) (links : Batch β)
    (tell : β → NamespaceInfo → α → γ) : Except Failure γ :=
  (r.namespaceResult ns).bind fun info =>
    ((x.both links).within r.config.limit).map fun found => tell found.2 info found.1

theorem fst_fetched {b : Batch α} {tell : NamespaceInfo → α → γ} (p : Progress) :
    ((do
      let info ← r.namespaceInfo ns
      let found ← r.fetch b
      return tell info found : Run γ) p).1 =
      (r.namespaceResult ns).bind fun info => (b.within r.config.limit).map (tell info) := by
  rw [← fst_namespaceInfo_eq r ns p]
  refine Run.fst_bind (fun info q => ?_) p
  have htold : ((r.fetch b >>= fun found => pure (tell info found) : Run γ) q).1 =
      (r.fetch b q).1.bind fun found => .ok (tell info found) :=
    Run.fst_bind (f := fun found => pure (tell info found)) (fun _ _ => rfl) q
  rw [htold, Resolver.fetch, Run.fst_waitWithin]
  cases b.within r.config.limit <;> rfl

/-- The list of the workloads among some objects, with references to Istio objects. -/
def tellWorkloads (r : Resolver) (selecting : List IstioObject) (info : NamespaceInfo)
    (resources : Resources) : WorkloadList :=
  ⟨info, (resources.workloads r.config.sidecarKey none).map
    (.ofWorkload r.config.appLabel r.config.versionLabel selecting)⟩

def tellApps (links : List IstioObject × List IstioObject) (info : NamespaceInfo)
    (apps : NameMap AppMembers) : AppList :=
  ⟨info, apps.entries.map fun (name, members) => .ofMembers links.1 links.2 name members⟩

theorem fst_listWorkloads (r : Resolver) (ns : String) (link : Bool) (p : Progress) :
    (r.listWorkloads ns link p).1 = r.listing ns (r.namespaceResources ns none)
      (r.linked link ns IstioKind.selecting) r.tellWorkloads :=
  fst_fetched p

theorem fst_listApps (r : Resolver) (ns : String) (link : Bool) (p : Progress) :
    (r.listApps ns link p).1 = r.listing ns (r.appMembers ns none)
      ((r.linked link ns IstioKind.routing).both (r.linked link ns IstioKind.selecting))
      tellApps :=
  fst_fetched p

variable {x : Batch α} {links links' : Batch β} {b : β} {tell : β → NamespaceInfo → α → γ}

theorem listing_eq_ok_iff {told : γ} : r.listing ns x links tell = .ok told ↔
    ∃ info a b, r.namespaceResult ns = .ok info ∧ x.Gives r.config.limit a ∧
      links.Gives r.config.limit b ∧ told = tell b info a := by
  unfold listing
  constructor
  · intro h
    cases hinfo : r.namespaceResult ns with
    | error e => simp [hinfo, Except.bind] at h
    | ok info =>
      cases hboth : (x.both links).within r.config.limit with
      | error e => simp [hinfo, hboth, Except.bind, Except.map] at h
      | ok found =>
        rw [hinfo, hboth] at h
        obtain ⟨ha, hb⟩ := (Batch.gives_of_within hboth).of_both
        exact ⟨info, found.1, found.2, rfl, ha, hb, (Except.ok.inj h).symm⟩
  · rintro ⟨info, a, b, hinfo, ha, hb, rfl⟩
    rw [hinfo, (ha.both hb).within]
    rfl

theorem listing_of_namespace_error {e : Failure} (h : r.namespaceResult ns = .error e) :
    r.listing ns x links tell = .error e := by
  unfold listing
  rw [h]
  rfl

/-- Links that are there in time count by what they are alone. -/
theorem listing_congr (h : links.Gives r.config.limit b) (h' : links'.Gives r.config.limit b) :
    r.listing ns x links tell = r.listing ns x links' tell := by
  unfold listing
  rw [h.within_both, h'.within_both]

/-- Links that are late can do no more than let the time run out. -/
theorem listing_of_late (h : links.Late r.config.limit) (h' : links'.Gives r.config.limit b) :
    r.listing ns x links tell = r.listing ns x links' tell ∨
      r.listing ns x links tell = .error (.timeout r.config.limit) := by
  unfold listing
  rw [h.within_both, h'.within_both]
  cases r.namespaceResult ns with
  | error e => exact .inl rfl
  | ok info =>
    cases x.within r.config.limit with
    | error e => exact .inl rfl
    | ok a => exact .inr rfl

end Resolver

end WorkloadMap
