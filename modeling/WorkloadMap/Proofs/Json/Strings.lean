import Mathlib.Tactic.IntervalCases
import WorkloadMap.Proofs.Json.Grammar

/-!
Strings as they are scanned: unit by unit up to the closing quote, and then put together. Main
statement: what is scanned before a quote is written as the grammar says, and what is written so is
scanned.
-/
namespace WorkloadMap.Json

variable {c : Char} {n : Nat} {cs rest w : List Char} {u : CodeUnit} {us : List CodeUnit}
  {text : Option String}

/-! Escapes. -/

theorem mem_escapes_of_simpleEscape? {e : Char} (h : simpleEscape? e = some c) :
    (e, c) ∈ escapes := by
  unfold simpleEscape? at h
  split at h
  all_goals first
    | cases h
      decide
    | cases h

theorem isHex_of_hexValue? (h : hexValue? c = some n) : IsHex c n := by
  have hc : c = Char.ofNat c.toNat := (Char.ofNat_toNat c).symm
  unfold hexValue? at h
  simp only [Char.le_def, UInt32.le_iff_toNat_le] at h
  change (if 48 ≤ c.toNat ∧ c.toNat ≤ 57 then some (c.toNat - 48)
    else if 97 ≤ c.toNat ∧ c.toNat ≤ 102 then some (c.toNat - 97 + 10)
    else if 65 ≤ c.toNat ∧ c.toNat ≤ 70 then some (c.toNat - 65 + 10) else none) = some n at h
  generalize c.toNat = m at hc h
  subst hc
  split at h
  next hm =>
    obtain rfl := Option.some.inj h
    obtain ⟨hfirst, hlast⟩ := hm
    interval_cases m <;> exact .inl rfl
  next =>
    split at h
    next hm =>
      obtain rfl := Option.some.inj h
      obtain ⟨hfirst, hlast⟩ := hm
      interval_cases m <;> exact .inl rfl
    next =>
      split at h
      next hm =>
        obtain rfl := Option.some.inj h
        obtain ⟨hfirst, hlast⟩ := hm
        interval_cases m <;> exact .inr rfl
      next => cases h

theorem IsHex.lt (h : IsHex c n) : n < 16 := by
  rcases h with h | h
  · exact (List.getElem?_eq_some_iff.1 h).1
  · exact (List.getElem?_eq_some_iff.1 h).1

theorem hexValue?_of_isHex (h : IsHex c n) : hexValue? c = some n := by
  have hn := h.lt
  rcases h with h | h
  · obtain ⟨_, rfl⟩ := List.getElem?_eq_some_iff.1 h
    interval_cases n <;> rfl
  · obtain ⟨_, rfl⟩ := List.getElem?_eq_some_iff.1 h
    interval_cases n <;> rfl

theorem HexText.lt (h : HexText n w) : n < 0x10000 := by
  cases h with
  | digits ha hb hc hd =>
    have := ha.lt
    have := hb.lt
    have := hc.lt
    have := hd.lt
    omega

theorem toNat_ofNat_of_isValidChar (h : n.isValidChar) : (Char.ofNat n).toNat = n := by
  rw [Char.ofNat, dif_pos h]
  rfl

/-- Every number of four digits is half of a character or one of its own. -/
theorem unitText_ofHex (h : HexText n w) : UnitText (.ofHex n) ('\\' :: 'u' :: w) := by
  unfold CodeUnit.ofHex
  split
  next hhalf => exact .half h hhalf
  next hhalf =>
    have hn := h.lt
    have hvalid : n.isValidChar := by
      unfold Nat.isValidChar
      omega
    exact .number ((toNat_ofNat_of_isValidChar hvalid).symm ▸ h)

theorem ofHex_toNat (c : Char) : CodeUnit.ofHex c.toNat = .char c := by
  have hvalid : ¬(0xD800 ≤ c.toNat ∧ c.toNat ≤ 0xDFFF) := by
    rcases c.valid with hlow | ⟨hhigh, -⟩
    · exact fun h => absurd h.1 (Nat.not_le_of_lt hlow)
    · exact fun h => absurd h.2 (Nat.not_le_of_lt hhigh)
  rw [CodeUnit.ofHex, if_neg hvalid, Char.ofNat_toNat]

/-! Units. -/

theorem scanString_hex (h : HexText n w) (cs : List Char) :
    scanString ('\\' :: 'u' :: w ++ cs) =
      (scanString cs).map fun (us, rest) => (.ofHex n :: us, rest) := by
  cases h with
  | digits ha hb hc hd =>
    simp only [List.cons_append, List.nil_append, scanString, hexValue?_of_isHex ha,
      hexValue?_of_isHex hb, hexValue?_of_isHex hc, hexValue?_of_isHex hd]
    cases scanString cs <;> rfl

theorem scanString_escape {e : Char} (h : (e, c) ∈ escapes) (cs : List Char) :
    scanString ('\\' :: e :: cs) = (scanString cs).map fun (us, rest) => (.char c :: us, rest) := by
  simp only [escapes, List.mem_cons, Prod.mk.injEq, List.not_mem_nil, or_false] at h
  rcases h with h | h | h | h | h | h | h | h
  all_goals
    obtain ⟨rfl, rfl⟩ := h
    rw [scanString.eq_4 _ _ (by simp)]
    cases scanString cs <;> rfl

theorem scanString_plain (hcontrol : 0x20 ≤ c.toNat) (hquote : c ≠ '"') (hslash : c ≠ '\\')
    (cs : List Char) :
    scanString (c :: cs) = (scanString cs).map fun (us, rest) => (.char c :: us, rest) := by
  have hplain : ¬(c.toNat < 0x20 ∨ c = '\\') := by
    rintro (hlow | rfl)
    · exact absurd hcontrol (Nat.not_le_of_lt hlow)
    · exact hslash rfl
  rw [scanString, if_neg hplain]
  · exact hquote
  · rintro _ _ _ _ _ rfl
    exact absurd rfl hslash
  · rintro _ _ rfl
    exact absurd rfl hslash

theorem scanString_unit (h : UnitText u w) (cs : List Char) :
    scanString (w ++ cs) = (scanString cs).map fun (us, rest) => (u :: us, rest) := by
  cases h with
  | plain hcontrol hquote hslash => exact scanString_plain hcontrol hquote hslash cs
  | escape h => exact scanString_escape h cs
  | @number c w h =>
    rw [← ofHex_toNat c]
    exact scanString_hex h cs
  | @half n w h hn =>
    have hhalf : CodeUnit.surrogate n = .ofHex n := (if_pos hn).symm
    rw [hhalf]
    exact scanString_hex h cs

theorem scanString_append (h : UnitsText us w) (rest : List Char) :
    scanString (w ++ '"' :: rest) = some (us, rest) := by
  induction h with
  | nil => simp [scanString]
  | cons hfirst _ ih =>
    rw [List.append_assoc, scanString_unit hfirst, ih]
    rfl

theorem exists_of_scanString (h : scanString cs = some (us, rest)) :
    ∃ w, UnitsText us w ∧ cs = w ++ '"' :: rest := by
  fun_induction scanString cs generalizing us rest with
  | case1 => cases h
  | case2 rest' =>
    cases h
    exact ⟨[], .nil, rfl⟩
  | case3 a b c d rest' ih =>
    simp only [Option.bind_eq_bind, Option.bind_eq_some_iff, Option.some.injEq, Prod.mk.injEq,
      Prod.exists] at h
    obtain ⟨x, hx, y, hy, z, hz, v, hv, us', r, hr, rfl, rfl⟩ := h
    obtain ⟨w, hw, rfl⟩ := ih hr
    have hhex : HexText _ [a, b, c, d] := .digits (isHex_of_hexValue? hx) (isHex_of_hexValue? hy)
      (isHex_of_hexValue? hz) (isHex_of_hexValue? hv)
    exact ⟨_, .cons (unitText_ofHex hhex) hw, rfl⟩
  | case4 e rest' _ ih =>
    simp only [Option.bind_eq_bind, Option.bind_eq_some_iff, Option.some.injEq, Prod.mk.injEq,
      Prod.exists] at h
    obtain ⟨c, hc, us', r, hr, rfl, rfl⟩ := h
    obtain ⟨w, hw, rfl⟩ := ih hr
    exact ⟨_, .cons (.escape (mem_escapes_of_simpleEscape? hc)) hw, rfl⟩
  | case5 => cases h
  | case6 c rest' hquote _ _ hplain ih =>
    obtain ⟨⟨us', r⟩, hr, heq⟩ := Option.map_eq_some_iff.1 h
    cases heq
    obtain ⟨w, hw, rfl⟩ := ih hr
    rw [not_or] at hplain
    exact ⟨_, .cons (.plain (Nat.le_of_not_lt hplain.1) hquote hplain.2) hw, rfl⟩

/-! Halves. -/

theorem half_of_unitsText (h : UnitsText us w) (hmem : .surrogate n ∈ us) :
    0xD800 ≤ n ∧ n ≤ 0xDFFF := by
  induction h with
  | nil => cases hmem
  | cons hfirst _ ih =>
    obtain rfl | hmem := List.mem_cons.1 hmem
    · cases hfirst with
      | half _ hn => exact hn
    · exact ih hmem

theorem assemble_of_pairs (h : Pairs us cs) : assemble us = some cs := by
  induction h with
  | nil => rfl
  | char _ ih => rw [assemble, ih, Option.map_some]
  | halves hhigh hlow hc _ ih =>
    rw [assemble, if_pos ⟨hhigh, hlow⟩, ih, Option.map_some, ← hc, Char.ofNat_toNat]

theorem pairs_of_assemble (h : assemble us = some cs)
    (hhalf : ∀ n, .surrogate n ∈ us → 0xD800 ≤ n ∧ n ≤ 0xDFFF) : Pairs us cs := by
  fun_induction assemble us generalizing cs with
  | case1 =>
    cases h
    exact .nil
  | case2 c us ih =>
    obtain ⟨cs, hcs, rfl⟩ := Option.map_eq_some_iff.1 h
    exact .char (ih hcs fun n hn => hhalf n (List.mem_cons_of_mem _ hn))
  | case3 high low us hpair ih =>
    obtain ⟨cs, hcs, rfl⟩ := Option.map_eq_some_iff.1 h
    have hhigh := hhalf high (by simp)
    have hlow := hhalf low (by simp)
    have hvalid : (0x10000 + (high - 0xD800) * 0x400 + (low - 0xDC00)).isValidChar := by
      unfold Nat.isValidChar
      omega
    exact .halves hpair.1 hpair.2 (toNat_ofNat_of_isValidChar hvalid)
      (ih hcs fun n hn => hhalf n (List.mem_cons_of_mem _ (List.mem_cons_of_mem _ hn)))
  | case4 => cases h
  | case5 => cases h

theorem stringText_of_unitsText (h : UnitsText us w) :
    StringText ((assemble us).map String.ofList) w := by
  cases hus : assemble us with
  | some cs => exact .text h (pairs_of_assemble hus fun n => half_of_unitsText h)
  | none =>
    refine .alone h fun cs hpairs => ?_
    rw [assemble_of_pairs hpairs] at hus
    cases hus

theorem exists_unitsText (h : StringText text w) :
    ∃ us, UnitsText us w ∧ (assemble us).map String.ofList = text := by
  cases h with
  | @text us _ _ h hpairs => exact ⟨us, h, by rw [assemble_of_pairs hpairs, Option.map_some]⟩
  | @alone us _ h halone =>
    refine ⟨us, h, ?_⟩
    cases hus : assemble us with
    | some cs => exact absurd (pairs_of_assemble hus fun n => half_of_unitsText h) (halone cs)
    | none => rfl

end WorkloadMap.Json
