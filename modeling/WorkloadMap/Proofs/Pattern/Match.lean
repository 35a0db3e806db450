import WorkloadMap.Proofs.Pattern.Places

/-!
What the matcher finds. A pattern laid over a text goes from any places to where the pattern spans
from one of them. Main statement: the matcher finds a match if and only if there is one.
-/
namespace WorkloadMap.Pattern

variable {text : Array Char} {p q : Pattern} {least : Nat} {most : Option Nat} {i j : Nat}

theorem forward_spans (text : Array Char) (p : Pattern) : Forward text.size (Spans text p) := by
  intro i j h hi
  induction h with
  | empty | assertion | done => exact ⟨Nat.le_refl _, hi⟩
  | @set s i c at_i =>
    have hlt : i < text.size := (Array.getElem?_eq_some_iff.1 at_i).1
    exact ⟨Nat.le_succ i, hlt⟩
  | altLeft _ ih | altRight _ ih => exact ih hi
  | seq _ _ ihl ihr =>
    exact ⟨Nat.le_trans (ihl hi).1 (ihr (ihl hi).2).1, (ihr (ihl hi).2).2⟩
  | must _ _ _ ihl ihr | more _ _ _ ihl ihr =>
    exact ⟨Nat.le_trans (ihl hi).1 (ihr (ihl hi).2).1, (ihr (ihl hi).2).2⟩

/-- How often a repetition repeats, as a relation between the places it spans. -/
def Repeats (R : Nat → Nat → Prop) (least : Nat) (most : Option Nat) (i j : Nat) : Prop :=
  ∃ k, least ≤ k ∧ (∀ m ∈ most, k ≤ m) ∧ Steps R k i j

theorem spans_times_iff :
    Spans text (.times p least most) i j ↔ Repeats (Spans text p) least most i j := by
  constructor
  · intro h
    generalize hp : Pattern.times p least most = t at h
    induction h generalizing least most with
    | empty | set | assertion | seq | altLeft | altRight => cases hp
    | done =>
      cases hp
      exact ⟨0, Nat.le_refl 0, fun m _ => Nat.zero_le m, .stay _⟩
    | must first rest room _ ih | more first rest room _ ih =>
      cases hp
      obtain ⟨k, hleast, hmost, hsteps⟩ := ih rfl
      refine ⟨k + 1, by omega, fun m hm => ?_, .go first hsteps⟩
      obtain rfl := Option.mem_def.1 hm
      have hk : k ≤ m - 1 := hmost (m - 1) rfl
      have hroom : m ≠ 0 := fun h => room (by rw [h])
      omega
  · rintro ⟨k, hleast, hmost, hsteps⟩
    induction hsteps generalizing least most with
    | stay =>
      obtain rfl := Nat.le_zero.1 hleast
      exact .done
    | @go k _ _ _ first _ ih =>
      have room : most ≠ some 0 := by
        rintro rfl
        exact absurd (hmost 0 rfl) (Nat.not_succ_le_zero k)
      have hrest : ∀ m ∈ most.map (· - 1), k ≤ m := by
        intro m hm
        obtain ⟨l, hl, rfl⟩ := Option.mem_map.1 hm
        exact Nat.le_sub_one_of_lt (hmost l hl)
      cases least with
      | zero => exact .more first (ih (Nat.zero_le k) hrest) room
      | succ least => exact .must first (ih (Nat.le_of_succ_le_succ hleast) hrest) room

/-! The places of a text. -/

theorem testBit_placesBelow (n : Nat) (accepts : Nat → Bool) (j : Nat) :
    (placesBelow n accepts).testBit j = true ↔ j < n ∧ accepts j = true := by
  rw [← List.mem_range]
  unfold placesBelow
  induction List.range n with
  | nil => simp
  | cons i is ih =>
    rw [List.foldr_cons, List.mem_cons]
    split
    next hi =>
      rw [testBit_union, ih, Nat.one_shiftLeft, Nat.testBit_two_pow, decide_eq_true_eq]
      constructor
      · rintro (⟨hmem, hj⟩ | rfl)
        · exact ⟨.inr hmem, hj⟩
        · exact ⟨.inl rfl, hi⟩
      · rintro ⟨rfl | hmem, hj⟩
        · exact .inr rfl
        · exact .inl ⟨hmem, hj⟩
    next hi =>
      rw [ih]
      constructor
      · exact fun ⟨hmem, hj⟩ => ⟨.inr hmem, hj⟩
      · rintro ⟨rfl | hmem, hj⟩
        · exact absurd hj hi
        · exact ⟨hmem, hj⟩

theorem CharSet.testBit_places (s : CharSet) (stands : List (Char × Places)) (j : Nat) :
    (s.places stands).testBit j = true ↔
      ∃ c places, (c, places) ∈ stands ∧ s.contains c = true ∧ places.testBit j = true := by
  unfold CharSet.places
  induction stands with
  | nil => simp
  | cons stand stands ih =>
    obtain ⟨c, places⟩ := stand
    rw [List.foldr_cons]
    dsimp only
    split
    next hc =>
      rw [testBit_union, ih]
      constructor
      · rintro (⟨d, ps, hmem, h⟩ | hj)
        · exact ⟨d, ps, List.mem_cons_of_mem _ hmem, h⟩
        · exact ⟨c, places, List.mem_cons_self, hc, hj⟩
      · rintro ⟨d, ps, hmem, hd, hj⟩
        rcases List.mem_cons.1 hmem with heq | hmem
        · cases heq
          exact .inr hj
        · exact .inl ⟨d, ps, hmem, hd, hj⟩
    next hc =>
      rw [ih]
      constructor
      · rintro ⟨d, ps, hmem, h⟩
        exact ⟨d, ps, List.mem_cons_of_mem _ hmem, h⟩
      · rintro ⟨d, ps, hmem, hd, hj⟩
        rcases List.mem_cons.1 hmem with heq | hmem
        · cases heq
          exact absurd hd hc
        · exact ⟨d, ps, hmem, hd, hj⟩

theorem CharSet.testBit_places_standings (s : CharSet) (text : Array Char) (j : Nat) :
    (s.places (standings text)).testBit j = true ↔
      ∃ c, text[j]? = some c ∧ s.contains c = true := by
  rw [CharSet.testBit_places]
  unfold standings
  constructor
  · rintro ⟨c, places, hmem, hc, hj⟩
    obtain ⟨d, -, heq⟩ := List.mem_map.1 hmem
    cases heq
    exact ⟨c, by simpa using ((testBit_placesBelow _ _ j).1 hj).2, hc⟩
  · rintro ⟨c, hj, hc⟩
    have hlt : j < text.size := (Array.getElem?_eq_some_iff.1 hj).1
    have hmem : c ∈ text.toList.eraseDups :=
      List.mem_eraseDups.2 (List.mem_of_getElem? (by simpa using hj))
    exact ⟨c, _, List.mem_map.2 ⟨c, hmem, rfl⟩, hc,
      (testBit_placesBelow _ _ j).2 ⟨hlt, by simpa using hj⟩⟩

/-! The matcher. -/

/-- No repetition asks for more than it allows. -/
def WellCounted : Pattern → Prop
  | .empty | .set _ | .assertion _ => True
  | .seq p q | .alt p q => p.WellCounted ∧ q.WellCounted
  | .times p least most => p.WellCounted ∧ ∀ m ∈ most, least ≤ m

/-- First the steps that must be taken, then those that may be, neither counted beyond the number of
places. -/
theorem Follows.repeats {n rounds : Nat} {R : Nat → Nat → Prop} {step : Places → Places}
    (h : Follows n R step) (hR : Forward n R) (hcount : ∀ m ∈ most, least ≤ m)
    (hrounds : ∀ k, k ≤ rounds ↔ k ≤ n + 1 ∧ ∀ m ∈ most, least + k ≤ m) :
    Follows n (Repeats R least most) fun starts =>
      grow step rounds (advance step (min least (n + 1)) starts)
        (advance step (min least (n + 1)) starts) := by
  intro starts hstarts j
  have hreached := testBit_advance h hR hstarts (min least (n + 1))
  have hfrontier : Frontier n R (advance step (min least (n + 1)) starts)
      (advance step (min least (n + 1)) starts) := by
    refine ⟨fun i hi => ?_, fun i hi => hi, fun i j hi hold => absurd hi (by simp [hold])⟩
    obtain ⟨i₀, hi₀, hsteps⟩ := (hreached i).1 hi
    exact (hsteps.forward hR (hstarts i₀ hi₀)).2
  rw [testBit_grow h hR hfrontier]
  simp only [hreached]
  constructor
  · have hleast : ∀ i₀ i, starts.testBit i₀ = true → Steps R (min least (n + 1)) i₀ i →
        Steps R least i₀ i := fun i₀ i hi₀ hsteps => (Steps.min_iff hR (hstarts i₀ hi₀)).1 hsteps
    rintro (⟨i, hi, hsteps⟩ | ⟨k, i, hk, ⟨i₀, hi₀, hfirst⟩, hsteps⟩)
    · exact ⟨i, hi, least, Nat.le_refl _, hcount, hleast i j hi hsteps⟩
    · exact ⟨i₀, hi₀, least + k, Nat.le_add_right _ _, ((hrounds k).1 hk).2,
        (hleast i₀ i hi₀ hfirst).append hsteps⟩
  · rintro ⟨i₀, hi₀, k, hleast, hmost, hsteps⟩
    obtain ⟨l, rfl⟩ := Nat.exists_eq_add_of_le hleast
    obtain ⟨i, hfirst, hrest⟩ := hsteps.split
    have hi := (hfirst.forward hR (hstarts i₀ hi₀)).2
    have hround : min l (n + 1) ≤ rounds :=
      (hrounds _).2 ⟨Nat.min_le_right _ _, fun m hm => by have := hmost m hm; omega⟩
    exact .inr ⟨min l (n + 1), i, hround, ⟨i₀, hi₀, (Steps.min_iff hR (hstarts i₀ hi₀)).2 hfirst⟩,
      (Steps.min_iff hR hi).2 hrest⟩

theorem follows_ends (text : Array Char) (hp : p.WellCounted) :
    Follows text.size (Spans text p) (p.overlay text (standings text)).ends := by
  induction p with
  | empty =>
    intro starts _ j
    constructor
    · exact fun hj => ⟨j, hj, .empty j⟩
    · rintro ⟨_, hj, ⟨⟩⟩
      exact hj
  | set s =>
    intro starts _ j
    simp only [overlay, Overlay.ends, Nat.testBit_shiftLeft, Nat.testBit_and, Bool.and_eq_true,
      decide_eq_true_eq, CharSet.testBit_places_standings]
    constructor
    · rintro ⟨hj, hstart, c, hc, hmem⟩
      obtain ⟨i, rfl⟩ := Nat.exists_eq_add_of_le' hj
      exact ⟨i, hstart, .set hc hmem⟩
    · rintro ⟨i, hi, hspan⟩
      cases hspan with
      | set at_i mem => exact ⟨Nat.le_add_left 1 i, hi, _, at_i, mem⟩
  | assertion a =>
    intro starts hstarts j
    simp only [overlay, Overlay.ends, Nat.testBit_and, Bool.and_eq_true, testBit_placesBelow]
    constructor
    · exact fun ⟨hj, _, hholds⟩ => ⟨j, hj, .assertion hholds⟩
    · rintro ⟨_, hj, ⟨⟩⟩
      rename_i hholds
      exact ⟨hj, Nat.lt_succ_of_le (hstarts j hj), hholds⟩
  | seq p q ihp ihq =>
    intro starts hstarts j
    have hmid := (ihp hp.1).within (forward_spans text p) hstarts
    rw [overlay, Overlay.ends, ihq hp.2 _ hmid]
    constructor
    · rintro ⟨m, hm, hright⟩
      obtain ⟨i, hi, hleft⟩ := (ihp hp.1 starts hstarts m).1 hm
      exact ⟨i, hi, .seq hleft hright⟩
    · rintro ⟨i, hi, hspan⟩
      cases hspan with
      | seq left right => exact ⟨_, (ihp hp.1 starts hstarts _).2 ⟨i, hi, left⟩, right⟩
  | alt p q ihp ihq =>
    intro starts hstarts j
    rw [overlay, Overlay.ends, testBit_union, ihp hp.1 starts hstarts, ihq hp.2 starts hstarts]
    constructor
    · rintro (⟨i, hi, hspan⟩ | ⟨i, hi, hspan⟩)
      · exact ⟨i, hi, .altLeft hspan⟩
      · exact ⟨i, hi, .altRight hspan⟩
    · rintro ⟨i, hi, hspan⟩
      cases hspan with
      | altLeft left => exact .inl ⟨i, hi, left⟩
      | altRight right => exact .inr ⟨i, hi, right⟩
  | times p least most ih =>
    intro starts hstarts j
    simp only [spans_times_iff]
    refine (ih hp.1).repeats (forward_spans text p) hp.2 (fun k => ?_) starts hstarts j
    cases most with
    | none => simp
    | some m =>
      have := hp.2 m rfl
      simp only [Option.mem_some, forall_eq']
      omega

theorem isMatch_iff_matches (hp : p.WellCounted) (text : String) :
    p.isMatch text = true ↔ p.Matches text := by
  have hall : Within text.toList.toArray.size
      (placesBelow (text.toList.toArray.size + 1) fun _ => true) :=
    fun i hi => Nat.le_of_lt_succ ((testBit_placesBelow _ _ i).1 hi).1
  have hends := follows_ends text.toList.toArray hp _ hall
  unfold isMatch Matches
  rw [bne_iff_ne]
  constructor
  · intro hsome
    obtain ⟨j, hj⟩ := Nat.exists_testBit_of_ne_zero hsome
    obtain ⟨i, hi, hspan⟩ := (hends j).1 hj
    exact ⟨i, j, hall i hi, hspan⟩
  · rintro ⟨i, j, hi, hspan⟩ hnone
    have hj := (hends j).2 ⟨i, (testBit_placesBelow _ _ i).2 ⟨Nat.lt_succ_of_le hi, rfl⟩, hspan⟩
    rw [hnone, Nat.zero_testBit] at hj
    cases hj

end WorkloadMap.Pattern
