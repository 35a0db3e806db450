import WorkloadMap.Text.Numeral

/-!
Spans of time in whole milliseconds, written in the largest unit that is at least one.
-/
namespace WorkloadMap.Duration

/-- The digits of thousandths without the zeros that end them. -/
private def thousandths (n : Nat) : String :=
  String.ofList ((Text.padded 3 (n % 1000)).toList.reverse.dropWhile (· == '0')).reverse

/-- Zero has no largest unit, and is written in the smallest. -/
def render (ms : Nat) : String :=
  if ms = 0 then "0ns"
  else if ms < 1000 then Text.digits 10 ms ++ "ms"
  else if ms % 1000 = 0 then Text.digits 10 (ms / 1000) ++ "s"
  else Text.digits 10 (ms / 1000) ++ "." ++ thousandths ms ++ "s"

end WorkloadMap.Duration
