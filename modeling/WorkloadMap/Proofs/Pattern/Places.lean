import Mathlib.Data.Nat.Bitwise
import WorkloadMap.Pattern.Basic

/-!
Steps from place to place, followed from many places at once. Steps that never lead back need not be
counted beyond the number of places. Main statements: where an exact number of steps leads, and
where any number of steps up to a limit does.
-/
namespace WorkloadMap.Pattern

/-- A path of so many steps. -/
inductive Steps (R : Nat → Nat → Prop) : Nat → Nat → Nat → Prop
  | stay (i : Nat) : Steps R 0 i i
  | go {k i m j : Nat} (first : R i m) (rest : Steps R k m j) : Steps R (k + 1) i j

/-- No step leads back, or beyond the last place. -/
def Forward (n : Nat) (R : Nat → Nat → Prop) : Prop := ∀ i j, R i j → i ≤ n → i ≤ j ∧ j ≤ n

variable {R : Nat → Nat → Prop} {n k k' a b i j m : Nat}

namespace Steps

theorem forward (hR : Forward n R) (h : Steps R k i j) (hi : i ≤ n) : i ≤ j ∧ j ≤ n := by
  induction h with
  | stay => exact ⟨Nat.le_refl _, hi⟩
  | go first _ ih =>
    obtain ⟨hle, hm⟩ := hR _ _ first hi
    exact ⟨Nat.le_trans hle (ih hm).1, (ih hm).2⟩

theorem append (h : Steps R a i m) (h' : Steps R b m j) : Steps R (a + b) i j := by
  induction h with
  | stay => rwa [Nat.zero_add]
  | go first _ ih =>
    rw [Nat.add_right_comm]
    exact .go first (ih h')

theorem split (h : Steps R (a + b) i j) : ∃ m, Steps R a i m ∧ Steps R b m j := by
  induction a generalizing i with
  | zero => exact ⟨i, .stay i, by rwa [Nat.zero_add] at h⟩
  | succ a ih =>
    rw [Nat.add_right_comm] at h
    cases h with
    | go first rest =>
      obtain ⟨m, hleft, hright⟩ := ih rest
      exact ⟨m, .go first hleft, hright⟩

/-- Of more steps than there are places on the way one leads nowhere. -/
theorem exists_loop (hR : Forward n R) (h : Steps R k i j) (hi : i ≤ n) (hk : j - i < k) :
    ∃ a m b, k = a + (b + 1) ∧ Steps R a i m ∧ R m m ∧ Steps R b m j := by
  induction h with
  | stay => omega
  | @go k i m j first rest ih =>
    obtain ⟨hle, hm⟩ := hR i m first hi
    by_cases hstay : m = i
    · subst hstay
      exact ⟨0, m, k, by omega, .stay m, first, rest⟩
    · obtain ⟨hon, -⟩ := rest.forward hR hm
      obtain ⟨a, l, b, rfl, hleft, hloop, hright⟩ := ih hm (by omega)
      exact ⟨a + 1, l, b, by omega, .go first hleft, hloop, hright⟩

theorem lengthen (hR : Forward n R) (h : Steps R k i j) (hi : i ≤ n) (hk : j - i < k) :
    Steps R (k + 1) i j := by
  obtain ⟨a, m, b, rfl, hleft, hloop, hright⟩ := h.exists_loop hR hi hk
  exact hleft.append (.go hloop (.go hloop hright))

theorem shorten (hR : Forward n R) (h : Steps R (k + 1) i j) (hi : i ≤ n) (hk : j - i ≤ k) :
    Steps R k i j := by
  obtain ⟨a, m, b, heq, hleft, -, hright⟩ := h.exists_loop hR hi (Nat.lt_succ_of_le hk)
  obtain rfl : k = a + b := by omega
  exact hleft.append hright

/-- Steps that lead nowhere may be left out until no more are left than there are places. -/
theorem of_le (hR : Forward n R) (h : Steps R k i j) (hi : i ≤ n) (hle : k' ≤ k)
    (hk : j - i ≤ k') : Steps R k' i j := by
  induction hle with
  | refl => exact h
  | step hle ih => exact ih (h.shorten hR hi (Nat.le_trans hk hle))

theorem of_ge (hR : Forward n R) (h : Steps R k i j) (hi : i ≤ n) (hle : k ≤ k')
    (hk : j - i < k) : Steps R k' i j := by
  induction hle with
  | refl => exact h
  | step hle ih => exact ih.lengthen hR hi (Nat.lt_of_lt_of_le hk hle)

/-- To count no further than there are places loses no path, and adds none. -/
theorem min_iff (hR : Forward n R) (hi : i ≤ n) :
    Steps R (min k (n + 1)) i j ↔ Steps R k i j := by
  constructor
  · intro h
    obtain ⟨-, hj⟩ := h.forward hR hi
    by_cases hk : k ≤ n + 1
    · rwa [Nat.min_eq_left hk] at h
    · rw [Nat.min_eq_right (by omega)] at h
      exact h.of_ge hR hi (by omega) (by omega)
  · intro h
    obtain ⟨-, hj⟩ := h.forward hR hi
    by_cases hk : k ≤ n + 1
    · rwa [Nat.min_eq_left hk]
    · rw [Nat.min_eq_right (by omega)]
      exact h.of_le hR hi (by omega) (by omega)

end Steps

/-- All of the places are places of a text with so many characters. -/
def Within (n : Nat) (places : Places) : Prop := ∀ i, places.testBit i = true → i ≤ n

/-- A function of sets of places that goes wherever a relation leads from any of them. -/
def Follows (n : Nat) (R : Nat → Nat → Prop) (step : Places → Places) : Prop :=
  ∀ starts, Within n starts → ∀ j, (step starts).testBit j = true ↔
    ∃ i, starts.testBit i = true ∧ R i j

variable {step : Places → Places} {places seen fresh : Places} {rounds : Nat}

theorem Follows.within (h : Follows n R step) (hR : Forward n R) (hplaces : Within n places) :
    Within n (step places) := by
  intro j hj
  obtain ⟨i, hi, hstep⟩ := (h places hplaces j).1 hj
  exact (hR i j hstep (hplaces i hi)).2

/-- Where a step leads to the same places again, so does any number of steps. -/
theorem Follows.steps_of_fixed (h : Follows n R step) (hplaces : Within n places)
    (hfixed : step places = places) (k j : Nat) :
    (∃ i, places.testBit i = true ∧ Steps R k i j) ↔ places.testBit j = true := by
  have hstep := h places hplaces
  rw [hfixed] at hstep
  constructor
  · rintro ⟨i, hi, hsteps⟩
    induction hsteps with
    | stay => exact hi
    | go first _ ih => exact ih ((hstep _).2 ⟨_, hi, first⟩)
  · induction k with
    | zero => exact fun hj => ⟨j, hj, .stay j⟩
    | succ k ih =>
      intro hj
      obtain ⟨i, hi, hsteps⟩ := ih hj
      obtain ⟨i', hi', hfirst⟩ := (hstep i).1 hi
      exact ⟨i', hi', .go hfirst hsteps⟩

theorem testBit_advance (h : Follows n R step) (hR : Forward n R) (hplaces : Within n places)
    (k j : Nat) : (advance step k places).testBit j = true ↔
      ∃ i, places.testBit i = true ∧ Steps R k i j := by
  induction k generalizing places with
  | zero =>
    constructor
    · exact fun hj => ⟨j, hj, .stay j⟩
    · rintro ⟨i, hi, _ | _⟩
      exact hi
  | succ k ih =>
    unfold advance
    dsimp only
    split
    next hfixed => exact (h.steps_of_fixed hplaces hfixed (k + 1) j).symm
    next =>
      rw [ih (h.within hR hplaces)]
      constructor
      · rintro ⟨m, hm, hsteps⟩
        obtain ⟨i, hi, hfirst⟩ := (h places hplaces m).1 hm
        exact ⟨i, hi, .go hfirst hsteps⟩
      · rintro ⟨i, hi, _ | ⟨first, rest⟩⟩
        exact ⟨_, (h places hplaces _).2 ⟨i, hi, first⟩, rest⟩

/-- From a set that only its fresh places lead out of, every path comes by one of these. -/
theorem Steps.leaves {S F : Nat → Prop} (hclosed : ∀ i j, S i → ¬F i → R i j → S j)
    (h : Steps R k i j) (hi : S i) : S j ∨ ∃ k' m, k' ≤ k ∧ F m ∧ Steps R k' m j := by
  induction h with
  | stay => exact .inl hi
  | @go k i m j first rest ih =>
    by_cases hfresh : F i
    · exact .inr ⟨k + 1, i, Nat.le_refl _, hfresh, .go first rest⟩
    · obtain hj | ⟨k', l, hk', hl, hsteps⟩ := ih (hclosed i m hi hfresh first)
      · exact .inl hj
      · exact .inr ⟨k', l, Nat.le_succ_of_le hk', hl, hsteps⟩

/-- Only the fresh places among those seen lead to places that were not seen. -/
structure Frontier (n : Nat) (R : Nat → Nat → Prop) (seen fresh : Places) : Prop where
  within : Within n seen
  among : ∀ i, fresh.testBit i = true → seen.testBit i = true
  closed : ∀ i j, seen.testBit i = true → fresh.testBit i = false → R i j → seen.testBit j = true

theorem testBit_new (next seen : Places) (j : Nat) :
    (next ^^^ (next &&& seen)).testBit j = true ↔
      next.testBit j = true ∧ ¬seen.testBit j = true := by
  rw [Nat.testBit_xor, Nat.testBit_and]
  cases next.testBit j <;> cases seen.testBit j <;> simp

theorem testBit_union (seen fresh : Places) (j : Nat) : (seen ||| fresh).testBit j = true ↔
    seen.testBit j = true ∨ fresh.testBit j = true := by
  rw [Nat.testBit_or, Bool.or_eq_true]

/-- What the fresh places lead to and was not seen is what is fresh next. -/
theorem Frontier.next (h : Follows n R step) (hR : Forward n R)
    (hfrontier : Frontier n R seen fresh) :
    Frontier n R (seen ||| (step fresh ^^^ (step fresh &&& seen)))
      (step fresh ^^^ (step fresh &&& seen)) := by
  have hfresh : Within n fresh := fun i hi => hfrontier.within i (hfrontier.among i hi)
  refine ⟨fun i hi => ?_, fun i hi => (testBit_union _ _ i).2 (.inr hi), fun i j hi hold hij => ?_⟩
  · rcases (testBit_union _ _ i).1 hi with hi | hi
    · exact hfrontier.within i hi
    · exact h.within hR hfresh i ((testBit_new _ _ i).1 hi).1
  · rw [testBit_union, testBit_new]
    have hseen : seen.testBit i = true :=
      ((testBit_union _ _ i).1 hi).resolve_right (Bool.eq_false_iff.1 hold)
    by_cases hj : seen.testBit j = true
    · exact .inl hj
    · refine .inr ⟨(h fresh hfresh j).2 ⟨i, ?_, hij⟩, hj⟩
      by_contra hnot
      exact hj (hfrontier.closed i j hseen (Bool.eq_false_iff.2 hnot) hij)

/-- What the rounds find is what was seen before, and what the fresh places lead to in at most so
many steps. -/
theorem testBit_grow (h : Follows n R step) (hR : Forward n R)
    (hfrontier : Frontier n R seen fresh) (rounds j : Nat) :
    (grow step rounds seen fresh).testBit j = true ↔
      seen.testBit j = true ∨ ∃ k i, k ≤ rounds ∧ fresh.testBit i = true ∧ Steps R k i j := by
  induction rounds generalizing seen fresh with
  | zero =>
    refine ⟨.inl, ?_⟩
    rintro (hj | ⟨k, i, hk, hi, hsteps⟩)
    · exact hj
    · obtain rfl := Nat.le_zero.1 hk
      cases hsteps
      exact hfrontier.among j hi
  | succ rounds ih =>
    have hfresh : Within n fresh := fun i hi => hfrontier.within i (hfrontier.among i hi)
    have hnext := hfrontier.next h hR
    unfold grow
    dsimp only
    split
    next hnone =>
      refine ⟨.inl, ?_⟩
      rintro (hj | ⟨k, i, -, hi, hsteps⟩)
      · exact hj
      · -- Nothing is fresh, so no path leads out of what was seen.
        rw [hnone] at hnext
        have hseen := fun i (hi : seen.testBit i = true) => (testBit_union seen 0 i).2 (.inl hi)
        have hleaves := hsteps.leaves (fun i j hi hold => hnext.closed i j hi
          (Bool.eq_false_iff.2 hold)) (hseen i (hfrontier.among i hi))
        simpa using hleaves
    next =>
      rw [ih hnext]
      constructor
      · rintro (hj | ⟨k, i, hk, hi, hsteps⟩)
        · rcases (testBit_union _ _ j).1 hj with hj | hj
          · exact .inl hj
          · obtain ⟨i, hi, hij⟩ := (h fresh hfresh j).1 ((testBit_new _ _ j).1 hj).1
            exact .inr ⟨1, i, by omega, hi, .go hij (.stay j)⟩
        · obtain ⟨l, hl, hli⟩ := (h fresh hfresh i).1 ((testBit_new _ _ i).1 hi).1
          exact .inr ⟨k + 1, l, by omega, hl, .go hli hsteps⟩
      · rintro (hj | ⟨k, i, hk, hi, hsteps⟩)
        · exact .inl ((testBit_union _ _ j).2 (.inl hj))
        · cases hsteps with
          | stay => exact .inl ((testBit_union _ _ _).2 (.inl (hfrontier.among _ hi)))
          | @go k _ m _ first rest =>
            have hm : (seen ||| (step fresh ^^^ (step fresh &&& seen))).testBit m = true := by
              rw [testBit_union, testBit_new]
              by_cases hseen : seen.testBit m = true
              · exact .inl hseen
              · exact .inr ⟨(h fresh hfresh m).2 ⟨i, hi, first⟩, hseen⟩
            obtain hj | ⟨k', l, hk', hl, hsteps⟩ := rest.leaves (fun i j hi hold => hnext.closed i j
              hi (Bool.eq_false_iff.2 hold)) hm
            · exact .inl hj
            · exact .inr ⟨k', l, by omega, hl, hsteps⟩

end WorkloadMap.Pattern
