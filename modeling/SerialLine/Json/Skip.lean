import SerialLine.Json.Number
import SerialLine.Json.Text
/-!
Passing over a value that nobody asked for. It has to be well formed, may nest to any depth, and
its numbers may be of any size.
-/

set_option autoImplicit false

namespace SerialLine.Json.Reader

/-- A bracket that has been opened and not yet closed. -/
inductive Bracket
  | list
  | object
  deriving DecidableEq

/-- What may come next in a value that is passed over. -/
inductive Expecting
  /-- The start of a value. -/
  | value
  /-- The first member or the end of the innermost bracket. -/
  | first
  /-- A comma or the end of the innermost bracket. -/
  | next
  deriving DecidableEq

def Bracket.closing : Bracket → Char
  | .list => ']'
  | .object => '}'

def Bracket.unfinished : Bracket → Fault
  | .list => .endOfList
  | .object => .endOfObject

def Bracket.expectedComma : Bracket → Fault
  | .list => .expectedListComma
  | .object => .expectedObjectComma

/-- Takes the key of a member and its colon; in a list there is none. -/
def skipKey : Bracket → Reader Unit
  | .list => pure ()
  | .object => do
    match ← peekPastBlank with
    | some '"' => do
      advance
      skipText
      colon
    | some _ => fail .keyNotText 1
    | none => fail .endOfObject 1

/-- Takes the start of a value, up to the bracket that it opens, if it does. -/
def skipStart : Reader (Option Bracket) := do
  match ← peekPastBlank with
  | none => fail .endOfValue 1
  | some c =>
    if c = '-' ∨ c.isDigit then do skipNumber; pure none
    else match c with
      | 'n' => do advance; word ['u', 'l', 'l']; pure none
      | 't' => do advance; word ['r', 'u', 'e']; pure none
      | 'f' => do advance; word ['a', 'l', 's', 'e']; pure none
      | '"' => do advance; skipText; pure none
      | '[' => do advance; pure (some .list)
      | '{' => do advance; pure (some .object)
      | _ => fail .expectedValue 1

/-- Takes a value part by part, keeping the brackets that are open. -/
def skipLoop : Nat → Expecting → List Bracket → List Char → Except Failure (List Char)
  | 0, _, _, cs => .ok cs
  | parts + 1, .value, brackets, cs =>
    match skipStart cs with
    | .error failure => .error failure
    | .ok (none, rest) => skipLoop parts .next brackets rest
    | .ok (some b, rest) => skipLoop parts .first (b :: brackets) rest
  | _ + 1, _, [], cs => .ok cs
  | parts + 1, expecting, b :: brackets, cs =>
    match cs.dropWhile isBlank with
    | [] => .error ⟨b.unfinished, some 0⟩
    | c :: rest =>
      if c = b.closing then skipLoop parts .next brackets rest
      else if expecting = .next ∧ c ≠ ',' then
        .error ⟨b.expectedComma, some (size (c :: rest) - 1)⟩
      else
        match skipKey b (if expecting = .next then rest else c :: rest) with
        | .error failure => .error failure
        | .ok (_, rest) => skipLoop parts .value (b :: brackets) rest

/-- Takes a whole value. No part of it is empty but the last, so there are at most twice as many
parts as characters. -/
def skipValue : Reader Unit := fun cs =>
  match skipLoop (2 * cs.length + 2) .value [] cs with
  | .ok rest => .ok ((), rest)
  | .error failure => .error failure

end SerialLine.Json.Reader
