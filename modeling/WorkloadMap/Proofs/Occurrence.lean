import Mathlib.Tactic.Tauto
import WorkloadMap.NameMap

/-!
The first and the last of a list to be as asked. Main statements: what a search finds is the first,
and a map made of a list of entries has the last value of each name.
-/
namespace WorkloadMap

variable {α β : Type} {p : α → Prop} {as : List α} {a b : α}

def IsFirst (p : α → Prop) (as : List α) (a : α) : Prop :=
  ∃ before after, as = before ++ a :: after ∧ p a ∧ ∀ earlier ∈ before, ¬p earlier

def IsLast (p : α → Prop) (as : List α) (a : α) : Prop :=
  ∃ before after, as = before ++ a :: after ∧ p a ∧ ∀ later ∈ after, ¬p later

theorem IsFirst.mem (h : IsFirst p as a) : a ∈ as := by
  obtain ⟨before, after, rfl, _⟩ := h
  simp

theorem find?_eq_some_iff_isFirst {q : α → Bool} (h : ∀ a, q a = true ↔ p a) :
    as.find? q = some a ↔ IsFirst p as a := by
  rw [List.find?_eq_some_iff_append]
  simp only [IsFirst, Bool.not_eq_true', ← Bool.not_eq_true, h]
  constructor
  · rintro ⟨ha, before, after, rfl, hbefore⟩
    exact ⟨before, after, rfl, ha, hbefore⟩
  · rintro ⟨before, after, rfl, ha, hbefore⟩
    exact ⟨ha, before, after, rfl, hbefore⟩

theorem IsLast.holds (h : IsLast p as a) : p a := by
  obtain ⟨before, after, _, ha, _⟩ := h
  exact ha

theorem IsLast.mem (h : IsLast p as a) : a ∈ as := by
  obtain ⟨before, after, rfl, _⟩ := h
  simp

theorem not_isLast_nil : ¬IsLast p [] a := by
  rintro ⟨before, after, heq, _⟩
  simp at heq

theorem isLast_cons_iff :
    IsLast p (b :: as) a ↔ (a = b ∧ p b ∧ ∀ later ∈ as, ¬p later) ∨ IsLast p as a := by
  constructor
  · rintro ⟨before, after, heq, ha, hafter⟩
    cases before with
    | nil =>
      cases heq
      exact .inl ⟨rfl, ha, hafter⟩
    | cons first before =>
      cases heq
      exact .inr ⟨before, after, rfl, ha, hafter⟩
  · rintro (⟨rfl, ha, hafter⟩ | ⟨before, after, rfl, ha, hafter⟩)
    · exact ⟨[], as, rfl, ha, hafter⟩
    · exact ⟨b :: before, after, rfl, ha, hafter⟩

theorem exists_isLast (h : ∃ a ∈ as, p a) : ∃ a, IsLast p as a := by
  induction as with
  | nil => simp at h
  | cons first as ih =>
    by_cases hlater : ∃ a ∈ as, p a
    · obtain ⟨a, hlast⟩ := ih hlater
      exact ⟨a, isLast_cons_iff.2 (.inr hlast)⟩
    · have hnone : ∀ later ∈ as, ¬p later := fun later hmem hp => hlater ⟨later, hmem, hp⟩
      obtain ⟨a, hmem, ha⟩ := h
      obtain rfl | hmem := List.mem_cons.1 hmem
      · exact ⟨a, isLast_cons_iff.2 (.inl ⟨rfl, ha, hnone⟩)⟩
      · exact absurd ha (hnone a hmem)

/-- Whatever else is as asked comes before the last. -/
theorem IsLast.rel_of_pairwise {r : α → α → Prop} (hr : as.Pairwise r) (h : IsLast p as a)
    (hmem : b ∈ as) (hb : p b) : b = a ∨ r b a := by
  obtain ⟨before, after, rfl, _, hafter⟩ := h
  obtain hbefore | rfl | hlater := by simpa using hmem
  · exact .inr ((List.pairwise_append.1 hr).2.2 b hbefore a (List.mem_cons_self ..))
  · exact .inl rfl
  · exact absurd hb (hafter b hlater)

theorem isLast_concat_iff :
    IsLast p (as ++ [b]) a ↔ (a = b ∧ p b) ∨ (¬p b ∧ IsLast p as a) := by
  induction as with
  | nil => simp [isLast_cons_iff, not_isLast_nil]
  | cons first as ih =>
    rw [List.cons_append, isLast_cons_iff, isLast_cons_iff, ih, List.forall_mem_append,
      List.forall_mem_singleton]
    tauto

theorem isLast_map_iff {f : α → β} {q : β → Prop} {b : β} :
    IsLast q (as.map f) b ↔ ∃ a, f a = b ∧ IsLast (fun a => q (f a)) as a := by
  induction as with
  | nil => simp [not_isLast_nil]
  | cons first as ih =>
    simp only [List.map_cons, isLast_cons_iff, ih, List.forall_mem_map]
    constructor
    · rintro (⟨rfl, hfirst, hlater⟩ | ⟨a, rfl, hlast⟩)
      · exact ⟨first, rfl, .inl ⟨rfl, hfirst, hlater⟩⟩
      · exact ⟨a, rfl, .inr hlast⟩
    · rintro ⟨a, rfl, ⟨rfl, hfirst, hlater⟩ | hlast⟩
      · exact .inl ⟨rfl, hfirst, hlater⟩
      · exact .inr ⟨a, rfl, hlast⟩

namespace NameMap

theorem find?_foldl_insert_eq_some_iff {es : List (String × α)} {m : NameMap α} {name : String} :
    (es.foldl (fun m e => m.insert e.1 e.2) m).find? name = some a ↔
      IsLast (fun e => e.1 = name) es (name, a) ∨
        (∀ e ∈ es, e.1 ≠ name) ∧ m.find? name = some a := by
  induction es generalizing m with
  | nil => simp [not_isLast_nil]
  | cons e es ih =>
    rw [List.foldl_cons, ih, find?_insert, isLast_cons_iff, List.forall_mem_cons]
    by_cases hname : name = e.1
    · subst hname
      have hvalue : (e.1, a) = e ↔ e.2 = a := ⟨fun h => by rw [← h], fun h => by rw [← h]⟩
      simp only [if_true, Option.some.injEq, hvalue]
      tauto
    · have hother : e.1 ≠ name := Ne.symm hname
      simp only [if_neg hname, hother, false_and, and_false, false_or, not_false_eq_true,
        true_and, ne_eq]

theorem find?_ofList_eq_some_iff {es : List (String × α)} {name : String} :
    (ofList es).find? name = some a ↔ IsLast (fun e => e.1 = name) es (name, a) := by
  simp [ofList, find?_foldl_insert_eq_some_iff]

/-- A list filed under names of its own has the last of each name there. -/
theorem find?_ofList_map_eq_some_iff {key : α → String} {name : String} :
    (ofList (as.map fun a => (key a, a))).find? name = some a ↔
      IsLast (fun a => key a = name) as a := by
  rw [find?_ofList_eq_some_iff, isLast_map_iff]
  constructor
  · rintro ⟨_, hentry, hlast⟩
    cases hentry
    exact hlast
  · intro hlast
    have hkey : key a = name := hlast.holds
    exact ⟨a, by rw [hkey], hlast⟩

end NameMap

end WorkloadMap
