/-!
Lengths of time in whole nanoseconds, and the text they are shown as.
-/

set_option autoImplicit false

namespace SerialLine

structure Duration where
  nanos : Nat
  deriving DecidableEq

namespace Duration

def nanosPerSecond : Nat := 1000000000

def ofSeconds (seconds : Nat) : Duration := ⟨seconds * nanosPerSecond⟩

/-- The whole seconds of a duration. -/
def seconds (d : Duration) : Nat := d.nanos / nanosPerSecond

/-- The nanoseconds beyond the whole seconds. -/
def subsecond (d : Duration) : Nat := d.nanos % nanosPerSecond

/-- A count of units with the part below one unit written out in as many decimals as it needs. -/
def decimal (nanos nanosPerUnit places : Nat) : String :=
  let digits := Nat.toDigits 10 (nanos % nanosPerUnit)
  let padded := List.replicate (places - digits.length) '0' ++ digits
  let kept := (padded.reverse.dropWhile (· = '0')).reverse
  toString (nanos / nanosPerUnit) ++ if kept.isEmpty then "" else "." ++ String.ofList kept

/-- Durations are shown in the largest of the units s, ms, µs and ns that they reach. -/
def text (d : Duration) : String :=
  if nanosPerSecond ≤ d.nanos then decimal d.nanos nanosPerSecond 9 ++ "s"
  else if 1000000 ≤ d.nanos then decimal d.nanos 1000000 6 ++ "ms"
  else if 1000 ≤ d.nanos then decimal d.nanos 1000 3 ++ "µs"
  else toString d.nanos ++ "ns"

end Duration

end SerialLine
