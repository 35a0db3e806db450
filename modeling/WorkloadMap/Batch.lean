import WorkloadMap.Source

/-!
Calls that are made at once. A batch fails at its first failure; otherwise it takes as long as its
slowest call.
-/
namespace WorkloadMap

structure Batch (α : Type) where
  calls : List Call
  arrival : Arrival
  result : Except Failure α

namespace Batch

variable {α β : Type}

/-- The batch without calls. -/
def done (a : α) : Batch α := ⟨[], .now, .ok a⟩

def ofCall (s : Source) (c : Call) : Batch c.Answer :=
  let outcome := s.outcome c
  ⟨[c], outcome.arrival, outcome.result⟩

def map (f : α → β) (x : Batch α) : Batch β := ⟨x.calls, x.arrival, x.result.map f⟩

/-- Of two failures the earlier one counts, and of two at once the left one. -/
def both (x : Batch α) (y : Batch β) : Batch (α × β) :=
  let calls := x.calls ++ y.calls
  match x.result, y.result with
  | .ok a, .ok b => ⟨calls, x.arrival.later y.arrival, .ok (a, b)⟩
  | .error e, .ok _ => ⟨calls, x.arrival, .error e⟩
  | .ok _, .error e => ⟨calls, y.arrival, .error e⟩
  | .error e, .error e' =>
    if y.arrival.precedes x.arrival then ⟨calls, y.arrival, .error e'⟩
    else ⟨calls, x.arrival, .error e⟩

def all : List (Batch α) → Batch (List α)
  | [] => done []
  | x :: xs => (both x (all xs)).map fun (a, as) => a :: as

/-- Every call is waited for, whatever comes of it. -/
def settled : List (Batch α) → Batch (List (Except Failure α))
  | [] => done []
  | x :: xs =>
    let rest := settled xs
    ⟨x.calls ++ rest.calls, x.arrival.later rest.arrival, rest.result.map (x.result :: ·)⟩

end Batch

end WorkloadMap
