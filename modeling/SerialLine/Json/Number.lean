import SerialLine.Json.Reader
/-!
Numbers in JSON text. Whole numbers of up to 64 bits are read exactly. Every other number is read
in two roundings: as many leading digits as fit into 64 bits are converted, and the result is
multiplied with or divided by a power of ten.
-/

set_option autoImplicit false

namespace SerialLine.Json

/-- The parts of a written number, in digits. -/
structure Literal where
  negative : Bool
  whole : List Nat
  fraction : List Nat
  /-- The sign and the digits of the power of ten. -/
  power : Option (Bool × List Nat)
  deriving DecidableEq

inductive Number
  | integer (value : Int)
  | float (value : Binary64)
  deriving DecidableEq

def Number.found : Number → Found
  | .integer n => .integer n
  | .float x => .float x

/-- A whole number becomes the nearest floating-point number. -/
def Number.toBinary64 : Number → Binary64
  | .integer n => .finite (n < 0) (Magnitude.ofNat n.natAbs)
  | .float x => x

/-- Appends digits to a number while the result fits into 64 bits, and yields the digits that
are left. -/
def absorb : Nat → List Nat → Nat × List Nat
  | n, [] => (n, [])
  | n, d :: ds => if 10 * n + d < UInt64.size then absorb (10 * n + d) ds else (n, d :: ds)

/-- The number written by the digits of a power of ten, or how many digits are left when it grows
beyond 31 bits. -/
def powerValue : Nat → List Nat → Except Nat Nat
  | n, [] => .ok n
  | n, d :: ds => if 10 * n + d < Nat.pow 2 31 then powerValue (10 * n + d) ds else .error ds.length

def powerOfTen (n : Nat) : Magnitude := Magnitude.ofNat (Nat.pow 10 n)

/-- The largest power of ten that is a finite number. -/
def largestPower : Nat := 308

/-- Multiplies with a power of ten; nothing if the result is too large. Powers that are too small
for one division take several. -/
def scaleByPower : Nat → Magnitude → Int → Option Magnitude
  | 0, m, _ => some m
  | divisions + 1, m, power =>
    if power.natAbs ≤ largestPower then
      if 0 ≤ power then
        let product := m.mul (powerOfTen power.toNat)
        if product.IsFinite then some product else none
      else some (m.div (powerOfTen power.natAbs))
    else if m.IsZero then some m
    else if 0 ≤ power then none
    else scaleByPower divisions (m.div (powerOfTen largestPower)) (power + largestPower)

namespace Literal

/-- The value of a number, or how many of its digits are unread when it proves too large. -/
def value (l : Literal) : Except Nat Number :=
  let whole := absorb 0 l.whole
  let digits := absorb whole.1 l.fraction
  let shift : Int := (whole.2.length : Int) - ((l.fraction.length : Int) - digits.2.length)
  let scaled (power : Int) : Except Nat Number :=
    match scaleByPower (power.natAbs + 1) (Magnitude.ofNat digits.1) power with
    | some m => .ok (.float (.finite l.negative m))
    | none => .error 0
  match l.power with
  | none =>
    if whole.2 ≠ [] ∨ l.fraction ≠ [] then scaled shift
    else if l.negative then
      if 0 < whole.1 ∧ whole.1 ≤ Nat.pow 2 63 then .ok (.integer (-(whole.1 : Int)))
      else .ok (.float (.finite true (Magnitude.ofNat whole.1)))
    else .ok (.integer whole.1)
  | some (down, power) =>
    match powerValue 0 power with
    | .ok n => scaled (if down then shift - n else shift + n)
    | .error left =>
      if digits.1 = 0 ∨ down then .ok (.float (.finite l.negative Magnitude.zero))
      else .error left

end Literal

namespace Reader

/-- Takes digits as long as there are any. -/
def digits : Reader (List Nat) := fun cs =>
  .ok ((cs.takeWhile Char.isDigit).map fun c => c.toNat - '0'.toNat, cs.dropWhile Char.isDigit)

/-- The digits before the point: a single zero, or digits that do not start with one. -/
def wholePart (atEnd : Fault) : Reader (List Nat) := do
  match ← peek with
  | none => fail atEnd 0
  | some '0' => do
    advance
    match ← peek with
    | some c => if c.isDigit then fail .badNumber 1 else pure [0]
    | none => pure [0]
  | some c => if c.isDigit then digits else fail .badNumber 1

/-- The point and the digits after it, of which there is at least one. -/
def fractionPart (atEnd : Fault) : Reader (List Nat) := do
  match ← peek with
  | some '.' => do
    advance
    let ds ← digits
    if ds.isEmpty then
      match ← peek with
      | some _ => fail .badNumber 1
      | none => fail atEnd 0
    else pure ds
  | _ => pure []

/-- The sign of a power of ten: whether it is negative. -/
def powerSign : Reader Bool := do
  match ← peek with
  | some '+' => do advance; pure false
  | some '-' => do advance; pure true
  | _ => pure false

/-- The letter e, a sign, and at least one digit. -/
def powerPart (atEnd : Fault) : Reader (Option (Bool × List Nat)) := do
  match ← peek with
  | some c =>
    if c = 'e' ∨ c = 'E' then do
      advance
      let down ← powerSign
      match ← peek with
      | none => fail atEnd 0
      | some d =>
        if d.isDigit then do
          let ds ← digits
          pure (some (down, ds))
        else fail .badNumber 1
    else pure none
  | none => pure none

/-- A number as written. The fault of a text that ends inside it is given by the caller. -/
def literal (atEnd : Fault) : Reader Literal := do
  let negative ← (do
    match ← peek with
    | some '-' => do advance; pure true
    | _ => pure false)
  let whole ← wholePart atEnd
  let fraction ← fractionPart atEnd
  let power ← powerPart atEnd
  pure ⟨negative, whole, fraction, power⟩

/-- The value of a number. -/
def number : Reader Number := do
  let l ← literal .endOfValue
  match l.value with
  | .ok n => pure n
  | .error left => fun cs => .error ⟨.numberRange, some (size cs + left)⟩

def skipNumber : Reader Unit := do
  let _ ← literal .badNumber
  pure ()

end Reader

end SerialLine.Json
