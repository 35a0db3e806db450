import WorkloadMap.Proofs.Resolver.Detail

/-!
What istiod says of proxies, and what is held of that. A look-up is answered from what is held while
that is fresh, so that two runs may be told different things. Main statement: where nothing is held
that istiod would not say again, what the look-ups of a run come to does not depend on when they are
made.
-/
namespace WorkloadMap

namespace Run

variable {α β : Type} {x : Run α} {f : α → Run β}

theorem held_bind (hx : ∀ p, (x p).2.held = p.held) (hf : ∀ a p, (f a p).2.held = p.held)
    (p : Progress) : ((x >>= f) p).2.held = p.held := by
  have hfirst := hx p
  rcases hrun : x p with ⟨result, p₁⟩
  rw [hrun] at hfirst
  cases result with
  | error e =>
    rw [bind_apply_of_error hrun]
    exact hfirst
  | ok a =>
    rw [bind_apply_of_ok hrun]
    exact (hf a p₁).trans hfirst

theorem held_waitWithin {limit : Nat} {b : Batch α} (p : Progress) :
    (waitWithin limit b p).2.held = p.held := by
  unfold waitWithin
  split <;> rfl

end Run

namespace Resolver

variable {r : Resolver} {ns name : String} {hint : Option Kind} {included : Bool} {p : Progress}

/-- What istiod says of the proxies whenever it is asked. -/
def syncStates (r : Resolver) : Except Failure (NameMap SyncStatus) :=
  match (r.source.outcome .syncText).result with
  | .error e => .error e
  | .ok text =>
    match Snapshot.states? text with
    | none => .error .syncUndecodable
    | some states => .ok states

/-- Nothing is held that istiod would not say again. -/
def IsCurrent (r : Resolver) (p : Progress) : Prop :=
  ∀ s, p.held = some s → r.syncStates = .ok s.states

/-- A look-up then has its answer from what istiod says, whether that is held or asked for. -/
theorem syncStatus_of_isCurrent (ns : String) (h : r.IsCurrent p) (pod : String) :
    (r.syncStatus ns pod p).1 = r.syncStates.map (·.find? (pod ++ "." ++ ns)) ∧
      r.IsCurrent (r.syncStatus ns pod p).2 := by
  unfold syncStatus SnapshotRead.at
  cases hfresh : p.held.filter (·.isFresh r.ttl p.clock) with
  | some s =>
    have hheld : p.held = some s := (Option.filter_eq_some_iff.1 hfresh).1
    exact ⟨by rw [h s hheld]; rfl, h⟩
  | none =>
    cases hresult : (r.source.outcome .syncText).result with
    | error e =>
      have hstates : r.syncStates = .error e := by simp only [syncStates, hresult]
      exact ⟨by rw [hstates]; rfl, h⟩
    | ok text =>
      dsimp only
      cases hparsed : Snapshot.states? text with
      | none =>
        have hstates : r.syncStates = .error .syncUndecodable := by
          simp only [syncStates, hresult, hparsed]
        exact ⟨by rw [hstates]; rfl, h⟩
      | some states =>
        have hstates : r.syncStates = .ok states := by simp only [syncStates, hresult, hparsed]
        refine ⟨by rw [hstates]; rfl, ?_⟩
        rintro s ⟨⟩
        exact hstates

theorem lookUps_of_isCurrent (h : r.IsCurrent p) (pods : List PodSummary) :
    r.lookUps ns pods p = pods.map fun pod =>
      if pod.hasSidecar then some (r.syncStates.map (·.find? (pod.name ++ "." ++ ns)))
      else none := by
  induction pods generalizing p with
  | nil => rfl
  | cons pod pods ih =>
    obtain ⟨hanswer, hcurrent⟩ := syncStatus_of_isCurrent ns h pod.name
    unfold lookUps
    cases hsidecar : pod.hasSidecar with
    | false => simp [hsidecar, ih h]
    | true => simp [hsidecar, hanswer, ih hcurrent]

theorem held_namespaceInfo (p : Progress) : (r.namespaceInfo ns p).2.held = p.held := by
  unfold namespaceInfo
  split
  · rfl
  · refine Run.held_bind (fun p => rfl) (fun found p => ?_) p
    cases found <;> rfl

theorem held_found (resources : Resources) (p : Progress) :
    (r.found resources name hint p).2.held = p.held := by
  unfold found
  cases resources.workload? r.config.sidecarKey name hint <;> rfl

theorem held_described (r : Resolver) (ns name : String) (hint : Option Kind) (included : Bool)
    (p : Progress) : (r.described ns name hint included p).2.held = p.held := by
  refine Run.held_bind held_namespaceInfo (fun _ => Run.held_bind Run.held_waitWithin ?_) p
  rintro ⟨resources, services⟩
  exact Run.held_bind (held_found resources) fun w p => rfl

/-- The answers are then told from the pods and from what istiod says, whatever was done before. -/
theorem answers_of_isCurrent {w : Workload} {services : List Service} {q : Progress}
    (h : r.IsCurrent p)
    (hdescribed : r.described ns name hint included p = (.ok (w, services), q)) :
    r.answers ns name hint included p = w.pods.map fun pod =>
      if pod.hasSidecar then some (r.syncStates.map (·.find? (pod.name ++ "." ++ ns)))
      else none := by
  have hheld := r.held_described ns name hint included p
  rw [hdescribed] at hheld
  have hcurrent : r.IsCurrent q := fun s hs => h s (hheld ▸ hs)
  rw [answers_of_described hdescribed, lookUps_of_isCurrent hcurrent]

end Resolver

end WorkloadMap
