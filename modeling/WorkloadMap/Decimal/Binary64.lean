/-!
Decimals kept with the precision of a 64 bit float: the float that is kept for a decimal, and the
fewest digits that read back as it. The arithmetic between two roundings is exact.
-/
namespace WorkloadMap

/-- The positive float `mantissa · 2 ^ scale`, or zero. -/
structure Binary64 where
  mantissa : Nat
  scale : Int
deriving DecidableEq, Repr

namespace Binary64

/-- The scale of the smallest floats. -/
def minScale : Int := -1074

/-- The quotient to the nearest integer, a half to the even one. -/
def roundDiv (num den : Nat) : Nat :=
  let q := num / den
  let r := num % den
  if 2 * r < den ∨ (2 * r = den ∧ q % 2 = 0) then q else q + 1

/-- `n · b ^ e` as a fraction. -/
private def fraction (n b : Nat) (e : Int) : Nat × Nat :=
  (n * Nat.pow b e.toNat, Nat.pow b (-e).toNat)

/-- Whether `a · b ^ e` is at most `c · d ^ f`. -/
private def atMost (a b : Nat) (e : Int) (c d : Nat) (f : Int) : Bool :=
  let (n₁, d₁) := fraction a b e
  let (n₂, d₂) := fraction c d f
  n₁ * d₂ ≤ n₂ * d₁

/-- The float nearest to a fraction, unless that is beyond the largest. -/
def nearest? (num den : Nat) : Option Binary64 :=
  if num = 0 then some ⟨0, minScale⟩
  else
    let low : Int := (num.log2 : Int) - den.log2 - 53
    let (above, unit) := fraction den 2 (low + 53)
    let scale := max minScale (if above ≤ num * unit then low + 1 else low)
    let rounded := roundDiv (num * Nat.pow 2 (-scale).toNat) (den * Nat.pow 2 scale.toNat)
    let x : Binary64 :=
      if rounded = Nat.pow 2 53 then ⟨Nat.pow 2 52, scale + 1⟩ else ⟨rounded, scale⟩
    if atMost 1 2 1024 x.mantissa 2 x.scale then none else some x

/-- The exact value as a fraction. -/
private def value (x : Binary64) : Nat × Nat := fraction x.mantissa 2 x.scale

/-- The greatest power of ten that is kept as a float. -/
def maxPower : Nat := 308

/-- A float times the float nearest to a power of ten. -/
private def scaleUp? (x : Binary64) (power : Nat) : Option Binary64 := do
  let (a, b) := x.value
  let (c, d) := (← nearest? (Nat.pow 10 power) 1).value
  nearest? (a * c) (b * d)

/-- A float divided by the float nearest to a power of ten. -/
private def scaleDown? (x : Binary64) (power : Nat) : Option Binary64 := do
  let (a, b) := x.value
  let (c, d) := (← nearest? (Nat.pow 10 power) 1).value
  nearest? (a * d) (b * c)

/-- A float times a power of ten. Two divisions by the greatest power leave nothing of a number of
64 bits. -/
private def scaled? : Nat → Binary64 → Int → Option Binary64
  | 0, _, _ => some ⟨0, minScale⟩
  | n + 1, x, exponent =>
    if x.mantissa = 0 then some x
    else if maxPower < exponent then none
    else if 0 ≤ exponent then scaleUp? x exponent.toNat
    else if -maxPower ≤ exponent then scaleDown? x (-exponent).toNat
    else do scaled? n (← scaleDown? x maxPower) (exponent + maxPower)

/-- The float that is kept for `significand · 10 ^ exponent`, unless it is beyond the largest. Both
are rounded before one is multiplied or divided by the other, which is rounded again. -/
def ofDecimal? (significand : Nat) (exponent : Int) : Option Binary64 := do
  scaled? 3 (← nearest? significand 1) exponent

/-- The power of ten of the leading digit; every positive float is above `10 ^ -400`. -/
private def leading (x : Binary64) : Int :=
  let (num, den) := x.value
  ((Nat.toDigits 10 (num * Nat.pow 10 400 / den)).length : Int) - 401

/-- Whether a decimal reads back as `x`: it lies in the interval of what rounds to it, whose ends
belong to the even mantissas. The interval is narrower below a power of two. -/
private def readsBack (x : Binary64) (digits : Nat) (exponent : Int) : Bool :=
  let m := 4 * x.mantissa
  let below := if x.mantissa = Nat.pow 2 52 ∧ minScale < x.scale then m - 1 else m - 2
  let above := m + 2
  let q := x.scale - 2
  if x.mantissa % 2 = 0 then
    atMost below 2 q digits 10 exponent && atMost digits 10 exponent above 2 q
  else
    !atMost digits 10 exponent below 2 q && !atMost above 2 q digits 10 exponent

/-- The digits on one decimal grid that read back as `x`, the nearer of the two neighbours first and
of two as near the even one. -/
private def onGrid (x : Binary64) (exponent : Int) : Option Nat :=
  let (num, den) := x.value
  let num := num * Nat.pow 10 (-exponent).toNat
  let den := den * Nat.pow 10 exponent.toNat
  let below := num / den
  let near := if roundDiv num den = below then [below, below + 1] else [below + 1, below]
  near.find? fun d => readsBack x d exponent

/-- The fewest digits that read back, and their power of ten. Seventeen always do. Only the upper
neighbour on the coarsest grid can end in a zero. -/
def shortest (x : Binary64) : Nat × Int :=
  let top := leading x
  let hits := (List.range 17).findSome? fun (n : Nat) =>
    (onGrid x (top - n)).map (·, top - (n : Int))
  let (d, e) := hits.getD (0, 0)
  if d % 10 = 0 then (d / 10, e + 1) else (d, e)

/-- Positional from `10 ^ -5` up to sixteen digits before the point, always with a point; otherwise
with an exponent that has a sign. -/
def render (negative : Bool) (x : Binary64) : String :=
  let sign := if negative then "-" else ""
  if x.mantissa = 0 then sign ++ "0.0"
  else
    let (d, e) := shortest x
    let ds := Nat.toDigits 10 d
    let point := ds.length + e
    let zeros (n : Int) := List.replicate n.toNat '0'
    let written :=
      if 0 ≤ e ∧ point ≤ 16 then ds ++ zeros e ++ ['.', '0']
      else if 0 < point ∧ point ≤ 16 then ds.take point.toNat ++ '.' :: ds.drop point.toNat
      else if -5 < point ∧ point ≤ 0 then '0' :: '.' :: zeros (-point) ++ ds
      else
        let tail := if ds.length = 1 then [] else '.' :: ds.drop 1
        let mark := if point ≤ 0 then '-' else '+'
        ds.take 1 ++ tail ++ 'e' :: mark :: Nat.toDigits 10 (point - 1).natAbs
    sign ++ String.ofList written

end Binary64

end WorkloadMap
