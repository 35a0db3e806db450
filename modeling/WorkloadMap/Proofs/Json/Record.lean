import WorkloadMap.Json.Decode

/-!
Records as they are read. Main statement: a field of an object is what its one member of that name
is, and missing if there is no member of that name.
-/
namespace WorkloadMap.Json

variable {v : Json} {vs : List Json} {ms : Members} {name : String} {names : List String}

/-- A list is read one by one if it is written one by one. -/
theorem mapM_eq_some_iff_map {α β : Type} {f : α → Option β} {g : β → α}
    (h : ∀ a b, f a = some b ↔ a = g b) {as : List α} {bs : List β} :
    as.mapM f = some bs ↔ as = bs.map g := by
  induction as generalizing bs with
  | nil => cases bs <;> simp
  | cons a as ih =>
    cases bs with
    | nil => simp [List.mapM_cons, Option.bind_eq_some_iff]
    | cons b bs =>
      rw [List.mapM_cons, List.map_cons, List.cons.injEq, ← h, ← ih]
      simp [Option.bind_eq_some_iff]

theorem members?_eq_some_iff : v.members? = some ms ↔ v = record ms := by
  cases v with
  | object named =>
    rw [members?, record, Json.object.injEq]
    refine mapM_eq_some_iff_map fun m m' => ?_
    rw [Option.map_eq_some_iff]
    constructor
    · rintro ⟨text, htext, rfl⟩
      exact Prod.ext htext rfl
    · rintro rfl
      exact ⟨m'.1, rfl, rfl⟩
  | _ => simp [members?, record]

/-- A list of texts. -/
def texts (names : List String) : Json := .array (names.map .text)

theorem list?_text?_eq_some_iff : list? text? v = some names ↔ v = texts names := by
  unfold list?
  cases v with
  | array vs =>
    rw [texts, Json.array.injEq]
    exact mapM_eq_some_iff_map fun _ _ => text?_eq_some_iff
  | _ => simp [array?, texts]

def Members.Lacks (ms : Members) (name : String) : Prop := ∀ m ∈ ms, m.1 ≠ name

/-- Of the members one bears the name. -/
inductive Members.HasOne (name : String) (v : Json) : Members → Prop
  | between {before after : Members} (hbefore : before.Lacks name) (hafter : after.Lacks name) :
      HasOne name v (before ++ (name, v) :: after)

theorem filter_eq_nil_iff_lacks : ms.filter (·.1 = name) = [] ↔ ms.Lacks name := by
  simp [Members.Lacks, List.filter_eq_nil_iff]

theorem filter_eq_singleton_iff_hasOne {m : String × Json} :
    ms.filter (·.1 = name) = [m] ↔ m.1 = name ∧ ms.HasOne name m.2 := by
  constructor
  · intro hfilter
    obtain ⟨before, after, rfl, hbefore, hm, hafter⟩ := List.filter_eq_cons_iff.1 hfilter
    obtain rfl : m.1 = name := by simpa using hm
    exact ⟨rfl, .between (by simpa [Members.Lacks] using hbefore) (filter_eq_nil_iff_lacks.1 hafter)⟩
  · rintro ⟨rfl, hbefore, hafter⟩
    rw [List.filter_append, filter_eq_nil_iff_lacks.2 hbefore, List.filter_cons_of_pos (by simp),
      filter_eq_nil_iff_lacks.2 hafter, List.nil_append]

theorem fieldOf_eq_missing_iff : fieldOf ms name = some none ↔ ms.Lacks name := by
  rw [← filter_eq_nil_iff_lacks, fieldOf]
  split
  next hfilter => simp [hfilter]
  next hfilter => simp [hfilter]
  next hnil _ => simpa using hnil

theorem fieldOf_eq_some_iff : fieldOf ms name = some (some v) ↔ ms.HasOne name v := by
  rw [fieldOf]
  constructor
  · intro h
    split at h
    next => cases h
    next m hfilter =>
      cases h
      exact (filter_eq_singleton_iff_hasOne.1 hfilter).2
    next => cases h
  · intro h
    rw [(filter_eq_singleton_iff_hasOne (m := (name, v))).2 ⟨rfl, h⟩]

/-- The two fields of a record, which may be an array of no more than those. -/
theorem fields?_pair_iff {first second : String} {x y : Option Json} :
    v.fields? [first, second] = some [x, y] ↔
      (∃ ms, v = record ms ∧ fieldOf ms first = some x ∧ fieldOf ms second = some y) ∨
        ∃ vs, v = .array vs ∧ vs.length ≤ 2 ∧ x = vs[0]? ∧ y = vs[1]? := by
  cases v with
  | array vs =>
    have hnone : ∀ ms, Json.array vs ≠ record ms := fun ms h => by cases h
    simp only [hnone, false_and, exists_false, false_or, Json.array.injEq, exists_eq_left']
    match vs with
    | [] => simp [fields?, List.replicate, eq_comm]
    | [v] => simp [fields?, eq_comm]
    | [v, v'] => simp [fields?, eq_comm]
    | v :: v' :: v'' :: vs => simp [fields?]
  | _ =>
    rw [fields?]
    · simp [Option.bind_eq_some_iff, members?_eq_some_iff]
    · simp

end WorkloadMap.Json
