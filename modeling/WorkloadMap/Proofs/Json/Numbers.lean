import Mathlib.Data.List.TakeWhile
import WorkloadMap.Proofs.Json.Grammar

/-!
Numbers as they are scanned. A number goes on as long as it can, so that it is read as written only
where nothing follows that it could go on with. Main statement: what is scanned is a number as the
grammar says, and such a number is scanned where it ends.
-/
namespace WorkloadMap.Json

variable {cs rest ds whole fraction f e w : List Char} {exponent : Option Int} {negative : Bool}
  {n : Number} {mark : Char}

/-- What a number cannot go on with. -/
def EndsNumber (cs : List Char) : Prop :=
  ∀ c ∈ cs.head?, c.isDigit = false ∧ c ≠ '.' ∧ c ≠ 'e' ∧ c ≠ 'E'

/-! Digits. -/

theorem scanDigits_append (h : IsDigits ds) (hrest : ∀ c ∈ rest.head?, c.isDigit = false) :
    scanDigits (ds ++ rest) = some (ds, rest) := by
  have htake : rest.takeWhile Char.isDigit = [] := by
    cases rest with
    | nil => rfl
    | cons c rest => simp [hrest c rfl]
  have hdrop : rest.dropWhile Char.isDigit = rest := by
    cases rest with
    | nil => rfl
    | cons c rest => simp [hrest c rfl]
  rw [scanDigits, List.takeWhile_append_of_pos h.digits, List.dropWhile_append_of_pos h.digits,
    htake, hdrop, List.append_nil]
  simp [h.nonempty]

theorem isDigits_of_scanDigits (h : scanDigits cs = some (ds, rest)) :
    IsDigits ds ∧ cs = ds ++ rest := by
  rw [scanDigits] at h
  split at h
  next => cases h
  next hne =>
    cases h
    exact ⟨⟨by simpa using hne, fun d hd => List.mem_takeWhile_imp hd⟩,
      List.takeWhile_append_dropWhile.symm⟩

theorem IsDigits.exists_cons (h : IsDigits ds) : ∃ d rest, ds = d :: rest ∧ d.isDigit = true := by
  cases ds with
  | nil => exact absurd rfl h.nonempty
  | cons d rest => exact ⟨d, rest, rfl, h.digits d (List.mem_cons_self ..)⟩

/-! Signs. -/

theorem scanSign_minus (h : ∀ c ∈ cs.head?, c ≠ '-') :
    scanSign ['-'] (minus negative ++ cs) = (negative, cs) := by
  cases negative with
  | true => rfl
  | false =>
    cases cs with
    | nil => rfl
    | cons c cs =>
      have hc : c ≠ '-' := h c rfl
      simp [minus, scanSign, hc]

theorem eq_of_scanSign (h : scanSign ['-'] cs = (negative, rest)) :
    cs = minus negative ++ rest := by
  cases cs with
  | nil =>
    cases h
    rfl
  | cons c cs =>
    rw [scanSign] at h
    split at h
    next hc =>
      obtain rfl : c = '-' := by simpa using hc
      cases h
      rfl
    next =>
      cases h
      rfl

/-! Fractions and exponents. -/

theorem scanFraction_append (h : FractionText fraction f)
    (hrest : ∀ c ∈ rest.head?, c.isDigit = false ∧ c ≠ '.') :
    scanFraction (f ++ rest) = some (fraction, rest) := by
  cases h with
  | none =>
    rw [List.nil_append, scanFraction.eq_2]
    rintro rest' rfl
    exact (hrest '.' rfl).2 rfl
  | point h => exact scanDigits_append h fun c hc => (hrest c hc).1

theorem fractionText_of_scanFraction (h : scanFraction cs = some (fraction, rest)) :
    ∃ f, FractionText fraction f ∧ cs = f ++ rest := by
  unfold scanFraction at h
  split at h
  next cs =>
    obtain ⟨hdigits, rfl⟩ := isDigits_of_scanDigits h
    exact ⟨_, .point hdigits, rfl⟩
  next =>
    cases h
    exact ⟨[], .none, rfl⟩

theorem FractionText.isEmpty_iff (h : FractionText fraction f) :
    fraction.isEmpty = true ↔ f = [] := by
  cases h with
  | none => simp
  | point h => simp [h.nonempty]

theorem scanExponent_cons (hmark : mark = 'e' ∨ mark = 'E') :
    scanExponent (mark :: cs) = some (exponent, rest) ↔
      ∃ negative after ds, scanSign ['-', '+'] cs = (negative, after) ∧
        scanDigits after = some (ds, rest) ∧
          exponent = some (if negative then -(Text.numeral ds : Int) else Text.numeral ds) := by
  rw [scanExponent, if_pos hmark]
  constructor
  · intro h
    obtain ⟨⟨ds, rest'⟩, hds, heq⟩ := Option.map_eq_some_iff.1 h
    cases heq
    exact ⟨_, _, ds, rfl, hds, rfl⟩
  · rintro ⟨negative, after, ds, hsign, hds, rfl⟩
    simp only [hsign, hds]
    rfl

theorem scanSign_cons_of_ne {c : Char} (hminus : c ≠ '-') (hplus : c ≠ '+') :
    scanSign ['-', '+'] (c :: cs) = (false, c :: cs) := by
  simp [scanSign, hminus, hplus]

theorem scanExponent_append (h : ExponentText exponent e) (hrest : EndsNumber rest) :
    scanExponent (e ++ rest) = some (exponent, rest) := by
  have hdigit : ∀ c ∈ rest.head?, c.isDigit = false := fun c hc => (hrest c hc).1
  cases h with
  | none =>
    cases rest with
    | nil => rfl
    | cons c rest => rw [List.nil_append, scanExponent, if_neg (not_or.2 (hrest c rfl).2.2)]
  | @plain mark ds hmark h =>
    have hsign : scanSign ['-', '+'] (ds ++ rest) = (false, ds ++ rest) := by
      obtain ⟨d, ds, rfl, hd⟩ := h.exists_cons
      refine scanSign_cons_of_ne ?_ ?_
      · rintro rfl
        cases hd
      · rintro rfl
        cases hd
    exact (scanExponent_cons hmark).2 ⟨_, _, ds, hsign, scanDigits_append h hdigit, rfl⟩
  | plus hmark h =>
    exact (scanExponent_cons hmark).2 ⟨_, _, _, rfl, scanDigits_append h hdigit, rfl⟩
  | minus hmark h =>
    exact (scanExponent_cons hmark).2 ⟨_, _, _, rfl, scanDigits_append h hdigit, rfl⟩

theorem exponentText_of_scanExponent (h : scanExponent cs = some (exponent, rest)) :
    ∃ e, ExponentText exponent e ∧ cs = e ++ rest := by
  cases cs with
  | nil =>
    cases h
    exact ⟨[], .none, rfl⟩
  | cons mark cs =>
    by_cases hmark : mark = 'e' ∨ mark = 'E'
    · obtain ⟨negative, after, ds, hsign, hds, rfl⟩ := (scanExponent_cons hmark).1 h
      obtain ⟨hdigits, rfl⟩ := isDigits_of_scanDigits hds
      cases cs with
      | nil =>
        have hempty : [] = ds ++ rest := congrArg Prod.snd hsign
        exact absurd (List.append_eq_nil_iff.1 hempty.symm).1 hdigits.nonempty
      | cons c cs =>
        by_cases hminus : c = '-'
        · subst hminus
          cases hsign
          exact ⟨_, .minus hmark hdigits, rfl⟩
        by_cases hplus : c = '+'
        · subst hplus
          cases hsign
          exact ⟨_, .plus hmark hdigits, rfl⟩
        · rw [scanSign_cons_of_ne hminus hplus] at hsign
          obtain ⟨rfl, hcs⟩ := Prod.mk.inj hsign
          exact ⟨_, .plain hmark hdigits, congrArg (mark :: ·) hcs⟩
    · rw [scanExponent, if_neg hmark] at h
      cases h
      exact ⟨[], .none, rfl⟩

theorem ExponentText.isNone_iff (h : ExponentText exponent e) :
    exponent.isNone = true ↔ e = [] := by
  cases h <;> simp

/-! Numbers. -/

/-- The number of these parts. -/
def numberOf (negative : Bool) (whole fraction : List Char) (exponent : Option Int) : Number :=
  if fraction.isEmpty ∧ exponent.isNone then .integer negative (Text.numeral whole)
  else .decimal negative whole fraction (exponent.getD 0)

theorem numberText_numberOf (hwhole : IsWhole whole) (hfraction : FractionText fraction f)
    (hexponent : ExponentText exponent e) :
    NumberText (numberOf negative whole fraction exponent) (minus negative ++ whole ++ f ++ e) := by
  unfold numberOf
  split
  next hinteger =>
    rw [hfraction.isEmpty_iff.1 hinteger.1, hexponent.isNone_iff.1 hinteger.2, List.append_nil,
      List.append_nil]
    exact .integer hwhole
  next hdecimal =>
    refine .decimal hwhole hfraction hexponent fun hempty => hdecimal ?_
    rw [hfraction.isEmpty_iff, hexponent.isNone_iff]
    exact List.append_eq_nil_iff.1 hempty

theorem NumberText.exists_parts (h : NumberText n w) :
    ∃ negative whole fraction f exponent e, IsWhole whole ∧ FractionText fraction f ∧
      ExponentText exponent e ∧ n = numberOf negative whole fraction exponent ∧
        w = minus negative ++ whole ++ f ++ e := by
  cases h with
  | integer h => exact ⟨_, _, [], [], none, [], h, .none, .none, rfl, by simp⟩
  | decimal h hfraction hexponent hne =>
    refine ⟨_, _, _, _, _, _, h, hfraction, hexponent, (if_neg fun hinteger => hne ?_).symm, rfl⟩
    rw [hfraction.isEmpty_iff.1 hinteger.1, hexponent.isNone_iff.1 hinteger.2, List.append_nil]

theorem ExponentText.head?_append (h : ExponentText exponent e) (hrest : EndsNumber rest) :
    ∀ c ∈ (e ++ rest).head?, c.isDigit = false ∧ c ≠ '.' := by
  have hmark : ∀ {mark : Char}, mark = 'e' ∨ mark = 'E' → mark.isDigit = false ∧ mark ≠ '.' := by
    rintro mark (rfl | rfl)
    · decide
    · decide
  cases h with
  | none => exact fun c hc => ⟨(hrest c hc).1, (hrest c hc).2.1⟩
  | plain h _ | plus h _ | minus h _ =>
    rintro c hc
    cases hc
    exact hmark h

theorem FractionText.head?_append (h : FractionText fraction f)
    (hrest : ∀ c ∈ rest.head?, c.isDigit = false ∧ c ≠ '.') :
    ∀ c ∈ (f ++ rest).head?, c.isDigit = false := by
  cases h with
  | none => exact fun c hc => (hrest c hc).1
  | point _ =>
    rintro c hc
    cases hc
    rfl

/-- A number is scanned as it is written, where it ends. -/
theorem scanNumber_append (h : NumberText n w) (hrest : EndsNumber rest) :
    scanNumber (w ++ rest) = some (n, rest) := by
  obtain ⟨negative, whole, fraction, f, exponent, e, hwhole, hfraction, hexponent, rfl, rfl⟩ :=
    h.exists_parts
  have hafter := hexponent.head?_append hrest
  have hsign : scanSign ['-'] (minus negative ++ (whole ++ (f ++ (e ++ rest)))) =
      (negative, whole ++ (f ++ (e ++ rest))) := by
    obtain ⟨d, ds, rfl, hd⟩ := hwhole.exists_cons
    refine scanSign_minus ?_
    rintro c hc rfl
    cases hc
    cases hd
  have hleading : ¬(whole.head? = some '0' ∧ whole.length ≠ 1) := by
    rintro ⟨hzero, hlength⟩
    rw [hwhole.leading hzero] at hlength
    exact hlength rfl
  simp only [List.append_assoc, scanNumber, hsign]
  rw [scanDigits_append hwhole.toIsDigits (hfraction.head?_append hafter)]
  simp only [Option.bind_eq_bind, Option.bind_some, if_neg hleading]
  rw [scanFraction_append hfraction hafter]
  simp only [Option.bind_some]
  rw [scanExponent_append hexponent hrest]
  simp only [Option.bind_some, numberOf]
  split <;> rfl

theorem numberText_of_scanNumber (h : scanNumber cs = some (n, rest)) :
    ∃ w, NumberText n w ∧ cs = w ++ rest := by
  simp only [scanNumber, Option.bind_eq_bind, Option.bind_eq_some_iff, Prod.exists] at h
  obtain ⟨whole, after, hdigits, h⟩ := h
  split at h
  next => cases h
  next hleading =>
    simp only [Option.bind_eq_some_iff, Prod.exists] at h
    obtain ⟨fraction, after', hfraction, exponent, after'', hexponent, h⟩ := h
    have hparts : numberOf (scanSign ['-'] cs).1 whole fraction exponent = n ∧ after'' = rest := by
      unfold numberOf
      split at h
      next hinteger =>
        cases h
        exact ⟨if_pos hinteger, rfl⟩
      next hdecimal =>
        cases h
        exact ⟨if_neg hdecimal, rfl⟩
    obtain ⟨rfl, rfl⟩ := hparts
    have hcs : cs = minus (scanSign ['-'] cs).1 ++ (scanSign ['-'] cs).2 := eq_of_scanSign rfl
    obtain ⟨hwhole, hafter⟩ := isDigits_of_scanDigits hdigits
    obtain ⟨f, hf, rfl⟩ := fractionText_of_scanFraction hfraction
    obtain ⟨e, he, rfl⟩ := exponentText_of_scanExponent hexponent
    refine ⟨_, numberText_numberOf ⟨hwhole, fun hzero => ?_⟩ hf he, ?_⟩
    · obtain ⟨d, ds, rfl, -⟩ := hwhole.exists_cons
      obtain rfl : d = '0' := by simpa using hzero
      have hlength : ds.length + 1 = 1 := by simpa using hleading
      rw [List.eq_nil_of_length_eq_zero (by omega : ds.length = 0)]
    · rw [hafter] at hcs
      simpa using hcs

/-- A number begins with a minus or a digit. -/
theorem NumberText.exists_cons (h : NumberText n w) :
    ∃ c cs, w = c :: cs ∧ (c = '-' ∨ c.isDigit = true) := by
  obtain ⟨negative, whole, fraction, f, exponent, e, hwhole, -, -, -, rfl⟩ := h.exists_parts
  obtain ⟨d, ds, rfl, hd⟩ := hwhole.exists_cons
  cases negative with
  | true => exact ⟨'-', _, rfl, .inl rfl⟩
  | false => exact ⟨d, _, rfl, .inr hd⟩

end WorkloadMap.Json
