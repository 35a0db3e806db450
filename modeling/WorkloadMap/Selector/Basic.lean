import WorkloadMap.NameMap

/-!
Label selectors. A selector is either a set of equalities, as controllers and services carry it, or
a list of requirements, as it is read from text. Main statement: a selector of equalities selects
exactly what bears all of its labels.
-/
namespace WorkloadMap

abbrev Labels := NameMap String

inductive Requirement where
  | oneOf (key : String) (values : NameSet)
  | noneOf (key : String) (values : NameSet)
  | present (key : String)
  | absent (key : String)
deriving DecidableEq

/-- A label that is missing is none of any values. -/
def Requirement.holds (labels : Labels) : Requirement → Bool
  | .oneOf key values => (labels.find? key).any values.contains
  | .noneOf key values => !(labels.find? key).any values.contains
  | .present key => labels.contains key
  | .absent key => !labels.contains key

inductive Selector where
  | equalities (labels : Labels)
  | requirements (rs : List Requirement)
deriving DecidableEq

namespace Selector

def isEmpty : Selector → Bool
  | .equalities labels => labels.isEmpty
  | .requirements rs => rs.isEmpty

def selects (labels : Labels) : Selector → Bool
  | .equalities wanted => wanted.entries.all fun (key, value) => labels.find? key == some value
  | .requirements rs => rs.all (·.holds labels)

theorem selects_equalities {labels wanted : Labels} :
    (Selector.equalities wanted).selects labels ↔
      ∀ key value, wanted.find? key = some value → labels.find? key = some value := by
  simp only [selects, List.all_eq_true, Prod.forall, beq_iff_eq, NameMap.mem_entries_iff]

theorem selects_requirements {labels : Labels} {rs : List Requirement} :
    (Selector.requirements rs).selects labels ↔ ∀ r ∈ rs, r.holds labels := by
  simp [selects]

end Selector

end WorkloadMap
