/-!
Numbers in digits.
-/
namespace WorkloadMap.Text

/-- The number that decimal digits stand for. -/
def numeral (digits : List Char) : Nat :=
  digits.foldl (fun n d => 10 * n + (d.toNat - '0'.toNat)) 0

/-- The digits of a number in a base up to sixteen, in lower case and without leading zeros. -/
def digits (base n : Nat) : String :=
  String.ofList (Nat.toDigits base n)

/-- At least `width` decimal digits. -/
def padded (width n : Nat) : String :=
  let ds := Nat.toDigits 10 n
  String.ofList (List.replicate (width - ds.length) '0' ++ ds)

end WorkloadMap.Text
