import SerialLine.Duration
import SerialLine.Refusal
/-!
Timeouts as floating-point numbers of seconds. Reading one rounds to the nearest nanosecond;
writing one rounds each step of the sum of whole seconds and nanoseconds.
-/

set_option autoImplicit false

namespace SerialLine

namespace Duration

/-- Durations stay below this many seconds. -/
def secondsLimit : Nat := Nat.pow 2 64

/-- The duration nearest to a number of seconds, a tie going to the even nanosecond. -/
def ofBinary64 (seconds : Binary64) : Except Refusal Duration :=
  match seconds with
  | .finite negative m =>
    if negative ∧ ¬ m.IsZero then .error (.timeoutNotPositive seconds)
    else
      let nanos := roundToEven (m.num * nanosPerSecond) m.den
      if nanos < secondsLimit * nanosPerSecond then .ok ⟨nanos⟩ else .error .timeoutRange
  | _ => .error (.timeoutNotPositive seconds)

/-- The whole seconds plus the nanoseconds divided by a billion, each rounded. -/
def magnitude (d : Duration) : Magnitude :=
  (Magnitude.ofNat d.seconds).add
    ((Magnitude.ofNat d.subsecond).div (Magnitude.ofNat nanosPerSecond))

def toBinary64 (d : Duration) : Binary64 := .finite false d.magnitude

end Duration

end SerialLine
