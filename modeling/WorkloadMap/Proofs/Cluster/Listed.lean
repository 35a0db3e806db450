import WorkloadMap.Cluster.Client

/-!
What listings come to. Main statement: Istio objects are of the kind that was asked for, whatever
the server says of them.
-/
namespace WorkloadMap.Client

variable {α : Type} {read : Json → Option α} {v : Json} {k : IstioKind} {ns : String}

theorem exists_read_of_mem_mapM {vs : List Json} {as : List α} {a : α}
    (h : vs.mapM read = some as) (ha : a ∈ as) : ∃ v, read v = some a := by
  induction vs generalizing as with
  | nil => simp_all
  | cons v vs ih =>
    obtain ⟨first, hfirst, rest, hrest, rfl⟩ : ∃ first, read v = some first ∧
        ∃ rest, vs.mapM read = some rest ∧ first :: rest = as := by
      simpa [List.mapM_cons, Option.bind_eq_some_iff] using h
    rcases List.mem_cons.1 ha with rfl | ha
    · exact ⟨v, hfirst⟩
    · exact ih hrest ha

/-- What is listed was read. -/
theorem exists_read_of_mem_items? {as : List α} {a : α} (h : items? read v = some as)
    (ha : a ∈ as) : ∃ v', read v' = some a := by
  simp only [items?, Option.bind_eq_bind, Option.bind_eq_some_iff] at h
  obtain ⟨_, -, fields, -, hfields⟩ := h
  split at hfields
  next metadata items =>
    split at hfields
    · cases hfields
    · obtain ⟨found, hfound, rfl⟩ := Option.map_eq_some_iff.1 hfields
      unfold Json.orNull at hfound
      split at hfound
      · cases hfound
        cases ha
      · obtain ⟨listed, hlisted, rfl⟩ := Option.map_eq_some_iff.1 hfound
        obtain ⟨vs, -, hread⟩ := Option.bind_eq_some_iff.1 hlisted
        exact exists_read_of_mem_mapM hread ha
  next => cases hfields

theorem kind_of_istioObject? {o : IstioObject} (h : istioObject? k ns v = some o) : o.kind = k := by
  simp only [istioObject?, Option.bind_eq_bind, Option.bind_eq_some_iff] at h
  obtain ⟨_, -, fields, -, hfields⟩ := h
  split at hfields
  next metadata =>
    cases metadata with
    | none => exact congrArg IstioObject.kind (Option.some.inj hfields).symm
    | some v =>
      obtain ⟨_, -, hobject⟩ := Option.bind_eq_some_iff.1 hfields
      exact congrArg IstioObject.kind (Option.some.inj hobject).symm
  next => cases hfields

/-- What a request came to was read, or stands for an error. -/
theorem read_or_recovered {link : Link} {r : Request} {recover : RequestError → Except Failure α}
    {a : α} (h : (outcome link r read recover).result = .ok a) :
    (∃ v, read v = some a) ∨ ∃ e, recover e = .ok a := by
  unfold outcome at h
  dsimp only at h
  split at h
  next found hfound =>
    obtain rfl := Except.ok.inj h
    refine .inl ?_
    cases link with
    | none => cases hfound
    | some server =>
      simp only [exchange] at hfound
      split at hfound
      next body _ =>
        split at hfound
        next v hv =>
          obtain rfl := Except.ok.inj hfound
          obtain ⟨v, -, hread⟩ := Option.bind_eq_some_iff.1 hv
          exact ⟨v, hread⟩
        next => cases hfound
      next => cases hfound
  next e _ => exact .inr ⟨e, h⟩

theorem kind_of_mem_istioObjects {link : Link} {objects : List IstioObject}
    (h : (istioObjects link k ns).result = .ok objects) {o : IstioObject} (ho : o ∈ objects) :
    o.kind = k := by
  unfold istioObjects at h
  split at h
  · cases h
  · rcases read_or_recovered h with ⟨v, hread⟩ | ⟨e, hrecovered⟩
    · obtain ⟨v', hobject⟩ := exists_read_of_mem_items? hread ho
      exact kind_of_istioObject? hobject
    · -- An error stands for no objects at all.
      split at hrecovered
      · split at hrecovered
        · cases hrecovered
          cases ho
        · cases hrecovered
      · cases hrecovered

theorem kind_of_mem_flatMap {link : Link} {kinds : List IstioKind}
    {fetched : IstioKind → List IstioObject}
    (h : ∀ k ∈ kinds, (istioObjects link k ns).result = .ok (fetched k)) :
    ∀ o ∈ kinds.flatMap fetched, o.kind ∈ kinds := by
  intro o ho
  obtain ⟨k, hk, ho⟩ := List.mem_flatMap.1 ho
  exact kind_of_mem_istioObjects (h k hk) ho ▸ hk

end WorkloadMap.Client
