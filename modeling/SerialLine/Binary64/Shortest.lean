import SerialLine.Binary64
/-!
Decimal text of floating-point numbers. The digits are the fewest that read back as the number,
and of those the nearest to it; a layout says how the digits are set out.
-/

set_option autoImplicit false

namespace SerialLine

/-- The number `coefficient * 10 ^ exponent`. -/
structure Decimal where
  coefficient : Nat
  exponent : Int
  deriving DecidableEq

/-- Which of two equally near decimals is taken. -/
inductive Tie
  | toEven
  | up
  deriving DecidableEq

namespace Magnitude

/-- The interval of reals that round to a number, in quarters of its last place. Below a power of
two the neighbour is only half as far away. -/
def quarters (m : Magnitude) : Nat × Nat :=
  let narrow := m.significand = significandLimit / 2 ∧ minExponent < m.exponent
  (if narrow then 4 * m.significand - 1 else 4 * m.significand - 2, 4 * m.significand + 2)

/-- The exponent of the first decimal digit of a positive number. -/
def decimalExponent (m : Magnitude) : Int :=
  if m.den ≤ m.num then ((Nat.toDigits 10 (m.num / m.den)).length : Int) - 1
  else
    let above := (m.den - 1) / m.num
    if above = 0 then 0 else -((Nat.toDigits 10 above).length : Int)

/-- Whether `c * 10 ^ s` rounds to the number. The ends of the interval belong to it exactly when
the significand is even. -/
def admits (m : Magnitude) (s : Int) (c : Nat) : Bool :=
  let e := m.exponent - 2
  let candidate := c * Nat.pow 10 s.toNat * Nat.pow 2 (-e).toNat
  let unit := Nat.pow 2 e.toNat * Nat.pow 10 (-s).toNat
  let low := m.quarters.1 * unit
  let high := m.quarters.2 * unit
  if m.significand % 2 = 0 then decide (low ≤ candidate ∧ candidate ≤ high)
  else decide (low < candidate ∧ candidate < high)

/-- The decimal on the grid of step `10 ^ s` that reads back as the number and is nearest to it. -/
def onGrid? (tie : Tie) (m : Magnitude) (s : Int) : Option Nat :=
  let value := m.num * Nat.pow 10 (-s).toNat
  let step := m.den * Nat.pow 10 s.toNat
  let below := value / step
  let rest := value % step
  match m.admits s below, m.admits s (below + 1) with
  | true, true =>
    if 2 * rest < step then some below
    else if step < 2 * rest then some (below + 1)
    else match tie with
      | .toEven => some (if below % 2 = 0 then below else below + 1)
      | .up => some (below + 1)
  | true, false => some below
  | false, true => some (below + 1)
  | false, false => none

/-- Tries the grids of more and more digits, the coarsest first. -/
def shortestFrom (tie : Tie) (m : Magnitude) (s : Int) : Nat → Decimal
  | 0 => ⟨0, 0⟩
  | grids + 1 =>
    match m.onGrid? tie s with
    | some c => ⟨c, s⟩
    | none => shortestFrom tie m (s - 1) grids

/-- The shortest decimal that reads back as a number. Seventeen digits always suffice. -/
def shortest (tie : Tie) (m : Magnitude) : Decimal :=
  if m.IsZero then ⟨0, 0⟩ else shortestFrom tie m m.decimalExponent 17

end Magnitude

namespace Decimal

/-- The significant digits, without zeros at the end. -/
def digits (d : Decimal) : List Char :=
  ((Nat.toDigits 10 d.coefficient).reverse.dropWhile (· = '0')).reverse

/-- The exponent of the first digit in scientific notation. -/
def leading (d : Decimal) : Int :=
  d.exponent + ((Nat.toDigits 10 d.coefficient).length : Int) - 1

/-- How a layout sets out decimals. -/
structure Layout where
  /-- The exponents of the first digit at which no power of ten is written. -/
  positional : Int → Bool
  /-- Whether a whole number ends in a zero after the point. -/
  markWhole : Bool
  tie : Tie

/-- The digits with a point in the place that the exponent of the first digit asks for. -/
def positionalText (markWhole : Bool) (digits : List Char) (leading : Int) : List Char :=
  if leading < 0 then
    '0' :: '.' :: (List.replicate ((-leading).toNat - 1) '0' ++ digits)
  else
    let places := leading.toNat + 1
    let whole := digits.take places ++ List.replicate (places - digits.length) '0'
    let fraction := digits.drop places
    if fraction.isEmpty then whole ++ (if markWhole then ['.', '0'] else [])
    else whole ++ '.' :: fraction

/-- One digit before the point, and a signed power of ten. -/
def scientificText (digits : List Char) (leading : Int) : List Char :=
  digits.take 1 ++ (if digits.length ≤ 1 then [] else '.' :: digits.drop 1)
    ++ 'e' :: (if leading < 0 then '-' else '+') :: Nat.toDigits 10 leading.natAbs

end Decimal

namespace Magnitude

def text (layout : Decimal.Layout) (m : Magnitude) : String :=
  let d := m.shortest layout.tie
  let digits := if m.IsZero then ['0'] else d.digits
  let leading := if m.IsZero then 0 else d.leading
  String.ofList <|
    if layout.positional leading then Decimal.positionalText layout.markWhole digits leading
    else Decimal.scientificText digits leading

end Magnitude

namespace Binary64

def text (layout : Decimal.Layout) : Binary64 → String
  | .nan => "NaN"
  | .infinite negative => if negative then "-inf" else "inf"
  | .finite negative m => (if negative then "-" else "") ++ m.text layout

end Binary64

end SerialLine
