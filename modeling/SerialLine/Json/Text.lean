import SerialLine.Json.Reader
/-!
Texts between quotes. A backslash starts an escape; characters outside the basic plane are
escaped as two surrogates. A text that is only skipped may hold surrogates that stand alone.
-/

set_option autoImplicit false

namespace SerialLine.Json.Reader

def hexDigit? (c : Char) : Option Nat :=
  if '0' ≤ c ∧ c ≤ '9' then some (c.toNat - '0'.toNat)
  else if 'a' ≤ c ∧ c ≤ 'f' then some (c.toNat - 'a'.toNat + 10)
  else if 'A' ≤ c ∧ c ≤ 'F' then some (c.toNat - 'A'.toNat + 10)
  else none

/-- The number written by four hexadecimal digits. -/
def hexNumber? (digits : List Char) : Option Nat :=
  digits.foldl (fun n? c => n?.bind fun n => (hexDigit? c).map (16 * n + ·)) (some 0)

/-- Takes the four bytes of a hexadecimal number. -/
def hexQuad : Reader Nat := fun cs =>
  if size (cs.take 4) < 4 then .error ⟨.endOfText, some 0⟩
  else match hexNumber? (cs.take 4) with
    | some n => .ok (n, cs.drop 4)
    | none => .error ⟨.badEscape, some (size cs - 4)⟩

def IsHighSurrogate (n : Nat) : Prop := 0xD800 ≤ n ∧ n ≤ 0xDBFF

instance (n : Nat) : Decidable (IsHighSurrogate n) := inferInstanceAs (Decidable (_ ∧ _))

def IsLowSurrogate (n : Nat) : Prop := 0xDC00 ≤ n ∧ n ≤ 0xDFFF

instance (n : Nat) : Decidable (IsLowSurrogate n) := inferInstanceAs (Decidable (_ ∧ _))

/-- Takes one of the characters between two surrogates. -/
def betweenSurrogates (c : Char) : Reader Unit := do
  match ← peek with
  | none => fail .endOfText 0
  | some d => if d = c then advance else fail .cutSurrogate 1

/-- The character of a numbered escape. -/
def numberedEscape : Reader Char := do
  let first ← hexQuad
  if IsLowSurrogate first then fail .loneSurrogate 0
  else if IsHighSurrogate first then do
    betweenSurrogates '\\'
    betweenSurrogates 'u'
    let second ← hexQuad
    if IsLowSurrogate second then
      pure (Char.ofNat (0x10000 + (first - 0xD800) * 0x400 + (second - 0xDC00)))
    else fail .loneSurrogate 0
  else pure (Char.ofNat first)

/-- The characters that one letter after the backslash stands for. -/
def shortEscape? : Char → Option Char
  | '"' => some '"'
  | '\\' => some '\\'
  | '/' => some '/'
  | 'b' => some '\x08'
  | 'f' => some '\x0c'
  | 'n' => some '\n'
  | 'r' => some '\r'
  | 't' => some '\t'
  | _ => none

/-- What stands after a backslash. -/
def escape (numbered : Reader Char) : Reader Char := do
  match ← peek with
  | none => fail .endOfText 0
  | some 'u' => do advance; numbered
  | some c =>
    match shortEscape? c with
    | some d => do advance; pure d
    | none => fail .badEscape 1

/-- Collects the characters up to the closing quote. Every step takes at least one. -/
def textLoop (numbered : Reader Char) (looked : Nat) :
    Nat → List Char → List Char → Except Failure (List Char × List Char)
  | 0, _, _ => .error ⟨.endOfText, some 0⟩
  | _ + 1, _, [] => .error ⟨.endOfText, some 0⟩
  | steps + 1, taken, c :: cs =>
    if c = '"' then .ok (taken.reverse, cs)
    else if c = '\\' then
      match escape numbered cs with
      | .ok (d, rest) => textLoop numbered looked steps (d :: taken) rest
      | .error failure => .error failure
    else if c.toNat < 0x20 then .error ⟨.controlCharacter, some (size (c :: cs) - looked)⟩
    else textLoop numbered looked steps (c :: taken) cs

/-- The rest of a text whose opening quote has been taken. -/
def text : Reader String := fun cs =>
  match textLoop numberedEscape 1 (cs.length + 1) [] cs with
  | .ok (taken, rest) => .ok (String.ofList taken, rest)
  | .error failure => .error failure

/-- Passes over the rest of a text whose opening quote has been taken. -/
def skipText : Reader Unit := fun cs =>
  match textLoop (do let _ ← hexQuad; pure ' ') 0 (cs.length + 1) [] cs with
  | .ok (_, rest) => .ok ((), rest)
  | .error failure => .error failure

end SerialLine.Json.Reader
