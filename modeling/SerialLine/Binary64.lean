/-!
Binary floating-point numbers of 64 bits, kept as exact numbers: a finite number is a natural
significand times a power of two, and every operation rounds the exact result to the nearest
representable number, a tie going to the even significand.
-/

set_option autoImplicit false

namespace SerialLine

/-- The quotient rounded to the nearest natural number, a tie going to the even one. -/
def roundToEven (num den : Nat) : Nat :=
  let quotient := num / den
  let rest := num % den
  if 2 * rest < den ∨ (2 * rest = den ∧ quotient % 2 = 0) then quotient else quotient + 1

/-- The number `significand * 2 ^ exponent`. -/
structure Magnitude where
  significand : Nat
  exponent : Int
  deriving DecidableEq

namespace Magnitude

/-- The exponent of the smallest numbers; below it there is only zero. -/
def minExponent : Int := -1074

/-- The largest exponent of a finite number. -/
def maxExponent : Int := 971

/-- Significands have at most 53 bits. -/
def significandLimit : Nat := Nat.pow 2 53

def zero : Magnitude := ⟨0, minExponent⟩

/-- The exact number as a quotient. -/
def num (m : Magnitude) : Nat := m.significand * Nat.pow 2 m.exponent.toNat

def den (m : Magnitude) : Nat := Nat.pow 2 (-m.exponent).toNat

def IsZero (m : Magnitude) : Prop := m.significand = 0

instance (m : Magnitude) : Decidable m.IsZero := inferInstanceAs (Decidable (_ = _))

/-- A number with a larger exponent has no finite representation. -/
def IsFinite (m : Magnitude) : Prop := m.exponent ≤ maxExponent

instance (m : Magnitude) : Decidable m.IsFinite := inferInstanceAs (Decidable (_ ≤ _))

/-- The exponent of the numbers between which a positive quotient lies: the one at which its
significand has 53 bits, or the smallest one. -/
def scale (num den : Nat) : Int :=
  let first : Int := (num.log2 : Int) - (den.log2 : Int) - 53
  let wide := significandLimit * (den * Nat.pow 2 first.toNat) ≤ num * Nat.pow 2 (-first).toNat
  max minExponent (if wide then first + 1 else first)

/-- The number nearest to a quotient. The exponent is not bounded from above. -/
def round (num den : Nat) : Magnitude :=
  if num = 0 then zero
  else
    let e := scale num den
    let s := roundToEven (num * Nat.pow 2 (-e).toNat) (den * Nat.pow 2 e.toNat)
    if s = significandLimit then ⟨significandLimit / 2, e + 1⟩ else ⟨s, e⟩

def ofNat (n : Nat) : Magnitude := round n 1

def add (a b : Magnitude) : Magnitude := round (a.num * b.den + b.num * a.den) (a.den * b.den)

def mul (a b : Magnitude) : Magnitude := round (a.num * b.num) (a.den * b.den)

def div (a b : Magnitude) : Magnitude := round (a.num * b.den) (a.den * b.num)

end Magnitude

inductive Binary64
  | nan
  | infinite (negative : Bool)
  | finite (negative : Bool) (magnitude : Magnitude)
  deriving DecidableEq

namespace Binary64

/-- Reads the interchange format: a sign, eleven exponent bits and 52 bits of significand. -/
def ofBits (bits : Nat) : Binary64 :=
  let negative : Bool := bits / Nat.pow 2 63 % 2 = 1
  let biased : Nat := bits / Nat.pow 2 52 % Nat.pow 2 11
  let fraction : Nat := bits % Nat.pow 2 52
  if biased = 2047 then if fraction = 0 then .infinite negative else .nan
  else if biased = 0 then .finite negative ⟨fraction, Magnitude.minExponent⟩
  else .finite negative ⟨Nat.pow 2 52 + fraction, (biased : Int) - 1075⟩

end Binary64

end SerialLine
