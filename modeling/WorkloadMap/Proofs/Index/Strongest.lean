import WorkloadMap.Proofs.Index.Rank

/-!
What pods leave under a name. Each pod is heard in its turn: one that has owners claims the names of
those that manage it, one that nothing owns claims its own name if no pod did so before it. Main
statement: the first of the strongest claims is what the index of the pods has under a name.
-/
namespace WorkloadMap

namespace Index

variable {index : Index} {pod : Pod} {pods : List Pod} {name : String} {earlier : List Kind}

/-- What a pod claims for a name after the claims of the pods before it. -/
def podClaims (name : String) (earlier : List Kind) (pod : Pod) : List Kind :=
  if pod.metadata.isOwned then claimsOn name pod.metadata.controllers
  else if Object.anyName pod = name ∧ earlier = [] then [.pod]
  else []

/-- What some pods claim for a name, one after the other. -/
def claimsOf (name : String) (pods : List Pod) : List Kind :=
  pods.foldl (fun earlier pod => earlier ++ podClaims name earlier pod) []

theorem find?_addPod_of_claims (h : index.find? name = Kind.afterClaims none earlier) :
    (index.addPod pod).find? name =
      Kind.afterClaims none (earlier ++ podClaims name earlier pod) := by
  rw [find?_addPod, h, podClaims]
  split
  next => rw [Kind.afterClaims_append]
  next =>
    by_cases hname : Object.anyName pod = name
    · subst hname
      -- The pod takes its name if and only if nothing is held there, that is, nothing was claimed.
      cases hheld : Kind.afterClaims none earlier with
      | none =>
        obtain ⟨_, rfl⟩ := Kind.afterClaims_eq_none.1 hheld
        simp [Kind.afterClaim]
      | some held =>
        have hearlier : earlier ≠ [] := by
          rintro rfl
          simp at hheld
        simp [hearlier, hheld]
    · simp [hname, Ne.symm hname]

theorem find?_foldl_addPod_of_claims (h : index.find? name = Kind.afterClaims none earlier) :
    (pods.foldl addPod index).find? name =
      Kind.afterClaims none
        (pods.foldl (fun earlier pod => earlier ++ podClaims name earlier pod) earlier) := by
  induction pods generalizing index earlier with
  | nil => exact h
  | cons pod pods ih => exact ih (find?_addPod_of_claims h)

theorem find?_ofPods (pods : List Pod) (name : String) :
    (ofPods pods).find? name = Kind.afterClaims none (claimsOf name pods) :=
  find?_foldl_addPod_of_claims rfl

end Index

/-- Owned, but managed by nothing. -/
def Pod.isUnmanaged (pod : Pod) : Bool :=
  pod.metadata.isOwned && pod.metadata.controllers.isEmpty

namespace Index

variable {index : Index} {pod : Pod}

theorem addPod_of_isUnmanaged (h : pod.isUnmanaged = true) : index.addPod pod = index := by
  obtain ⟨howned, hnone⟩ := (Bool.and_eq_true _ _).to_iff.1 h
  rw [addPod, if_pos howned, List.isEmpty_iff.1 hnone]
  rfl

theorem foldl_addPod_filter (pods : List Pod) (index : Index) :
    (pods.filter (!·.isUnmanaged)).foldl addPod index = pods.foldl addPod index := by
  induction pods generalizing index with
  | nil => rfl
  | cons pod pods ih =>
    cases hpod : pod.isUnmanaged with
    | true =>
      rw [List.filter_cons_of_neg (by simp [hpod]), List.foldl_cons, addPod_of_isUnmanaged hpod, ih]
    | false => rw [List.filter_cons_of_pos (by simp [hpod]), List.foldl_cons, List.foldl_cons, ih]

/-- The index of some pods has the names that are claimed at all, each with the first of the
strongest claims to it, and pods that are owned but managed by nothing have no part in it. -/
theorem ofPods_firstStrongest (pods : List Pod) :
    (∀ name, ((ofPods pods).find? name).isSome ↔ claimsOf name pods ≠ []) ∧
      (∀ name kind, (ofPods pods).find? name = some kind ↔
        Kind.IsFirstStrongest (claimsOf name pods) kind) ∧
      ofPods (pods.filter (!·.isUnmanaged)) = ofPods pods := by
  refine ⟨fun name => ?_, fun name kind => ?_, foldl_addPod_filter pods ∅⟩
  · rw [find?_ofPods, Option.isSome_iff_ne_none, ne_eq, Kind.afterClaims_eq_none]
    simp
  · rw [find?_ofPods, Kind.afterClaims_none_iff]

/-- A pod does not claim its name from a custom kind, but a DaemonSet does. -/
example :
    let pods : List Pod := [
      { metadata := { name := some "api-a", owners := [⟨"Rollout", "api", true⟩] } },
      { metadata := { name := some "api" } },
      { metadata := { name := some "api-b", owners := [⟨"DaemonSet", "api", true⟩] } }]
    claimsOf "api" pods = [Kind.ofName "Rollout", .controller .daemonSet] ∧
      (ofPods pods).find? "api" = some (.controller .daemonSet) := by decide +kernel

end Index

end WorkloadMap
