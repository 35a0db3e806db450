import WorkloadMap.Proofs.Batch
import WorkloadMap.Resolver.Basic

/-!
Runs that come to an answer. Main statements: a run goes on with what its first part gave it, and
came to an answer only if that part did.
-/
namespace WorkloadMap

namespace Run

variable {α β : Type} {x : Run α} {f : α → Run β} {b : Batch α} {a : α} {limit : Nat}
  {p p' : Progress}

theorem bind_apply_of_ok (h : x p = (.ok a, p')) : (x >>= f) p = f a p' := by
  have hstep : (x >>= f) p = ExceptT.bindCont f (x p).1 (x p).2 := rfl
  rw [hstep, h]
  rfl

theorem wait_of_ok (h : b.result = .ok a) (p : Progress) : ∃ p', wait b p = (.ok a, p') :=
  ⟨_, congrArg (·, _) h⟩

theorem waitWithin_of_gives (h : b.Gives limit a) (p : Progress) :
    ∃ p', waitWithin limit b p = (.ok a, p') := by
  unfold waitWithin
  rw [if_pos h.inTime]
  exact wait_of_ok h.result p

theorem waitWithin_of_fails {e : Failure} (h : b.Fails limit e) (p : Progress) :
    ∃ p', waitWithin limit b p = (.error e, p') := by
  unfold waitWithin
  rw [if_pos h.inTime]
  exact ⟨_, congrArg (·, _) h.result⟩

theorem waitWithin_of_late (h : b.Late limit) (p : Progress) :
    ∃ p', waitWithin limit b p = (.error (.timeout limit), p') := by
  unfold waitWithin
  rw [if_neg (Bool.not_eq_true _ ▸ h)]
  exact ⟨_, rfl⟩

theorem bind_apply_of_error {e : Failure} (h : x p = (.error e, p')) :
    (x >>= f) p = (.error e, p') := by
  have hstep : (x >>= f) p = ExceptT.bindCont f (x p).1 (x p).2 := rfl
  rw [hstep, h]
  rfl

/-- A run that came to an answer went on from the answer of its first part. -/
theorem of_bind_ok {b : β} (h : (x >>= f) p = (.ok b, p')) :
    ∃ a p₁, x p = (.ok a, p₁) ∧ f a p₁ = (.ok b, p') := by
  rcases hx : x p with ⟨result, p₁⟩
  cases result with
  | error e =>
    rw [bind_apply_of_error hx] at h
    cases h
  | ok a => exact ⟨a, p₁, rfl, (bind_apply_of_ok hx).symm.trans h⟩

theorem gives_of_waitWithin (h : waitWithin limit b p = (.ok a, p')) : b.Gives limit a := by
  unfold waitWithin at h
  split at h
  next htime => exact ⟨congrArg Prod.fst h, htime⟩
  next => cases h

end Run

end WorkloadMap
