import WorkloadMap.Batch

/-!
Batches of which every call is answered in time, and batches of which one is not. Main statements:
calls made at once give all of their answers by the time by which each of them gives its own, and
fail in time exactly if one of them does.
-/
namespace WorkloadMap

namespace Arrival

variable {limit : Nat} {a b : Arrival}

theorem isWithin_later (ha : a.isWithin limit = true) (hb : b.isWithin limit = true) :
    (a.later b).isWithin limit = true := by
  unfold later
  split
  · exact hb
  · exact ha

/-- The later of two is within a limit only if each of them is. -/
theorem isWithin_of_later (h : (a.later b).isWithin limit = true) :
    a.isWithin limit = true ∧ b.isWithin limit = true := by
  unfold later at h
  cases a with
  | now =>
    cases b with
    | now => exact ⟨rfl, rfl⟩
    | after n => exact ⟨rfl, h⟩
  | after m =>
    cases b with
    | now => exact ⟨h, rfl⟩
    | after n =>
      simp only [precedes, decide_eq_true_eq] at h
      split at h <;> simp only [isWithin, decide_eq_true_eq] at h ⊢ <;> omega

/-- What precedes something in time is in time as well. -/
theorem isWithin_of_precedes (h : a.precedes b = true) (hb : b.isWithin limit = true) :
    a.isWithin limit = true := by
  cases a with
  | now => rfl
  | after m =>
    cases b with
    | now => cases h
    | after n =>
      simp only [precedes, isWithin, decide_eq_true_eq] at h hb ⊢
      omega

theorem isWithin_of_not_precedes (h : ¬a.precedes b = true) (ha : a.isWithin limit = true) :
    b.isWithin limit = true := by
  cases b with
  | now => rfl
  | after n =>
    cases a with
    | now => exact absurd rfl h
    | after m =>
      simp only [precedes, isWithin, decide_eq_true_eq] at h ha ⊢
      omega

end Arrival

namespace Batch

variable {α β : Type} {limit : Nat} {x : Batch α} {y : Batch β} {a : α} {b : β}

/-- The answer is there before the time is over. -/
structure Gives (limit : Nat) (x : Batch α) (a : α) : Prop where
  result : x.result = .ok a
  inTime : x.arrival.isWithin limit = true

theorem Gives.done (limit : Nat) (a : α) : (done a).Gives limit a :=
  ⟨rfl, rfl⟩

theorem Gives.map (f : α → β) (h : x.Gives limit a) : (x.map f).Gives limit (f a) := by
  refine ⟨?_, h.inTime⟩
  unfold Batch.map
  rw [h.result]
  rfl

theorem both_of_ok (hx : x.result = .ok a) (hy : y.result = .ok b) :
    x.both y = ⟨x.calls ++ y.calls, x.arrival.later y.arrival, .ok (a, b)⟩ := by
  unfold Batch.both
  rw [hx, hy]

theorem Gives.both (hx : x.Gives limit a) (hy : y.Gives limit b) :
    (x.both y).Gives limit (a, b) := by
  rw [both_of_ok hx.result hy.result]
  exact ⟨rfl, Arrival.isWithin_later hx.inTime hy.inTime⟩

theorem Gives.all {ι : Type} {f : ι → Batch α} {g : ι → α} {is : List ι}
    (h : ∀ i ∈ is, (f i).Gives limit (g i)) : (all (is.map f)).Gives limit (is.map g) := by
  induction is with
  | nil => exact .done limit []
  | cons i is ih =>
    have hfirst := h i List.mem_cons_self
    have hrest := ih fun j hj => h j (List.mem_cons_of_mem i hj)
    exact (hfirst.both hrest).map _

theorem Gives.of_map {f : α → β} (h : (x.map f).Gives limit b) :
    ∃ a, x.Gives limit a ∧ f a = b := by
  have hresult : x.result.map f = .ok b := h.result
  cases hx : x.result with
  | error e => simp [hx, Except.map] at hresult
  | ok a =>
    rw [hx] at hresult
    exact ⟨a, ⟨hx, h.inTime⟩, Except.ok.inj hresult⟩

/-- Calls made at once come to an answer only if each comes to its own. -/
theorem ok_of_both (h : (x.both y).result = .ok (a, b)) : x.result = .ok a ∧ y.result = .ok b := by
  cases hx : x.result with
  | ok a' =>
    cases hy : y.result with
    | ok b' =>
      rw [both_of_ok hx hy] at h
      cases h
      exact ⟨rfl, rfl⟩
    | error e => simp [Batch.both, hx, hy] at h
  | error e =>
    cases hy : y.result with
    | ok b' => simp [Batch.both, hx, hy] at h
    | error e' =>
      simp only [Batch.both, hx, hy] at h
      split at h <;> cases h

theorem Gives.of_both (h : (x.both y).Gives limit (a, b)) : x.Gives limit a ∧ y.Gives limit b := by
  obtain ⟨hx, hy⟩ := ok_of_both h.result
  have htime := h.inTime
  rw [both_of_ok hx hy] at htime
  obtain ⟨hxtime, hytime⟩ := Arrival.isWithin_of_later htime
  exact ⟨⟨hx, hxtime⟩, ⟨hy, hytime⟩⟩

/-- Of batches that are told apart by keys each gives what is found under its key. -/
theorem Gives.of_all_keyed {κ : Type} [DecidableEq κ] {f : κ → Batch α} {ks : List κ}
    {found : List (κ × α)} (h : (Batch.all (ks.map fun k => (f k).map (k, ·))).Gives limit found)
    {k : κ} (hk : k ∈ ks) : ∃ a, found.lookup k = some a ∧ (f k).Gives limit a := by
  induction ks generalizing found with
  | nil => simp at hk
  | cons first ks ih =>
    obtain ⟨⟨_, rest⟩, hboth, rfl⟩ := h.of_map
    obtain ⟨hfirst, hrest⟩ := hboth.of_both
    obtain ⟨a, ha, rfl⟩ := hfirst.of_map
    by_cases heq : k = first
    · subst heq
      exact ⟨a, by simp, ha⟩
    · have hne : (k == first) = false := beq_eq_false_iff_ne.2 heq
      obtain ⟨b, hlookup, hb⟩ := ih hrest ((List.mem_cons.1 hk).resolve_left heq)
      exact ⟨b, by simpa [List.lookup_cons, hne] using hlookup, hb⟩

/-! Failures. -/

/-- The failure is there before the time is over. -/
structure Fails (limit : Nat) (x : Batch α) (e : Failure) : Prop where
  result : x.result = .error e
  inTime : x.arrival.isWithin limit = true

def Late (limit : Nat) (x : Batch α) : Prop := x.arrival.isWithin limit = false

variable {e : Failure}

theorem gives_or_fails_or_late (limit : Nat) (x : Batch α) :
    (∃ a, x.Gives limit a) ∨ (∃ e, x.Fails limit e) ∨ x.Late limit := by
  cases htime : x.arrival.isWithin limit with
  | false => exact .inr (.inr htime)
  | true =>
    cases hresult : x.result with
    | ok a => exact .inl ⟨a, hresult, htime⟩
    | error e => exact .inr (.inl ⟨e, hresult, htime⟩)

/-- What neither gives an answer in time nor fails in time is late. -/
theorem late_of_forall_not (hgives : ∀ a, ¬x.Gives limit a) (hfails : ∀ e, ¬x.Fails limit e) :
    x.Late limit := by
  rcases x.gives_or_fails_or_late limit with ⟨a, ha⟩ | ⟨e, he⟩ | hlate
  · exact absurd ha (hgives a)
  · exact absurd he (hfails e)
  · exact hlate

theorem Gives.not_late (h : x.Gives limit a) : ¬x.Late limit :=
  fun hlate => Bool.noConfusion (h.inTime.symm.trans hlate)

theorem Fails.not_late (h : x.Fails limit e) : ¬x.Late limit :=
  fun hlate => Bool.noConfusion (h.inTime.symm.trans hlate)

theorem Gives.not_fails (h : x.Gives limit a) (e : Failure) : ¬x.Fails limit e := by
  intro hfails
  cases h.result.symm.trans hfails.result

theorem Fails.map (f : α → β) (h : x.Fails limit e) : (x.map f).Fails limit e := by
  refine ⟨?_, h.inTime⟩
  unfold Batch.map
  rw [h.result]
  rfl

theorem Fails.of_map {f : α → β} (h : (x.map f).Fails limit e) : x.Fails limit e := by
  have hresult : x.result.map f = .error e := h.result
  cases hx : x.result with
  | ok a => simp [hx, Except.map] at hresult
  | error e' =>
    rw [hx] at hresult
    obtain rfl : e' = e := Except.error.inj hresult
    exact ⟨hx, h.inTime⟩

/-- Of two batches that fail the earlier one counts, and if that is in time, it is told. -/
theorem both_of_errors {e' : Failure} (hx : x.result = .error e) (hy : y.result = .error e') :
    x.both y = if y.arrival.precedes x.arrival then ⟨x.calls ++ y.calls, y.arrival, .error e'⟩
      else ⟨x.calls ++ y.calls, x.arrival, .error e⟩ := by
  unfold Batch.both
  rw [hx, hy]

theorem both_of_error_ok (hx : x.result = .error e) (hy : y.result = .ok b) :
    x.both y = ⟨x.calls ++ y.calls, x.arrival, .error e⟩ := by
  unfold Batch.both
  rw [hx, hy]

theorem both_of_ok_error (hx : x.result = .ok a) (hy : y.result = .error e) :
    x.both y = ⟨x.calls ++ y.calls, y.arrival, .error e⟩ := by
  unfold Batch.both
  rw [hx, hy]

theorem Fails.of_both (h : (x.both y).Fails limit e) : x.Fails limit e ∨ y.Fails limit e := by
  cases hx : x.result with
  | ok a =>
    cases hy : y.result with
    | ok b =>
      rw [both_of_ok hx hy] at h
      cases h.result
    | error e' =>
      rw [both_of_ok_error hx hy] at h
      obtain ⟨⟨⟩, htime⟩ := h
      exact .inr ⟨hy, htime⟩
  | error e' =>
    cases hy : y.result with
    | ok b =>
      rw [both_of_error_ok hx hy] at h
      obtain ⟨⟨⟩, htime⟩ := h
      exact .inl ⟨hx, htime⟩
    | error e'' =>
      rw [both_of_errors hx hy] at h
      split at h
      · obtain ⟨⟨⟩, htime⟩ := h
        exact .inr ⟨hy, htime⟩
      · obtain ⟨⟨⟩, htime⟩ := h
        exact .inl ⟨hx, htime⟩

theorem Fails.both_left (h : x.Fails limit e) (y : Batch β) :
    ∃ e', (x.both y).Fails limit e' := by
  cases hy : y.result with
  | ok b =>
    rw [both_of_error_ok h.result hy]
    exact ⟨e, rfl, h.inTime⟩
  | error e' =>
    rw [both_of_errors h.result hy]
    split
    next hfirst => exact ⟨e', rfl, Arrival.isWithin_of_precedes hfirst h.inTime⟩
    next => exact ⟨e, rfl, h.inTime⟩

theorem Fails.both_right (x : Batch α) (h : y.Fails limit e) :
    ∃ e', (x.both y).Fails limit e' := by
  cases hx : x.result with
  | ok a =>
    rw [both_of_ok_error hx h.result]
    exact ⟨e, rfl, h.inTime⟩
  | error e' =>
    rw [both_of_errors hx h.result]
    split
    next => exact ⟨e, rfl, h.inTime⟩
    next hfirst => exact ⟨e', rfl, Arrival.isWithin_of_not_precedes hfirst h.inTime⟩

end Batch

end WorkloadMap
