import SerialLine.Json.Skip
/-!
Reading values of known shape: numbers in a range, texts, words out of a list, and records whose
fields are given by name in an object or in order in a list. Fields that are not given keep the
value they had.
-/

set_option autoImplicit false

namespace SerialLine.Json

/-- Where a value that is well formed but refused is reported: the bytes left unread there. -/
abbrev Place := List Char → Option Nat

namespace Place

/-- A value that stands alone is refused without a position. -/
def nowhere : Place := fun _ => none

/-- In an object, after the blanks and the closing brace that follow. -/
def inObject : Place := fun cs =>
  match cs.dropWhile isBlank with
  | '}' :: rest => some (size rest)
  | rest => some (size rest)

/-- In a list, after the blanks and the closing bracket or the comma that follow. -/
def inList : Place := fun cs =>
  match cs.dropWhile isBlank with
  | ']' :: rest => some (size rest)
  | ',' :: rest => some (size (rest.dropWhile isBlank))
  | rest => some (size rest)

end Place

namespace Reader

/-- Refuses the value just read. -/
def refuse {α : Type} (place : Place) (fault : Fault) : Reader α :=
  fun cs => .error ⟨fault, place cs⟩

/-- Reports a value of another type than the expected one. Numbers, words and texts are read
first, brackets are not entered. -/
def wrongType {α : Type} (expected : String) : Reader α := do
  match ← peek with
  | none => fail .endOfValue 1
  | some c =>
    if c = '-' ∨ c.isDigit then do
      let n ← number
      fail (.wrongType n.found expected) 0
    else match c with
      | 'n' => do advance; word ['u', 'l', 'l']; fail (.wrongType .null expected) 0
      | 't' => do advance; word ['r', 'u', 'e']; fail (.wrongType (.boolean true) expected) 0
      | 'f' => do advance; word ['a', 'l', 's', 'e']; fail (.wrongType (.boolean false) expected) 0
      | '"' => do
        advance
        let s ← text
        fail (.wrongType (.text s) expected) 0
      | '[' => fail (.wrongType .list expected) 0
      | '{' => fail (.wrongType .object expected) 0
      | _ => fail .expectedValue 1

/-- A number of any kind. -/
def anyNumber (expected : String) : Reader Number := do
  match ← peekPastBlank with
  | none => fail .endOfValue 1
  | some c => if c = '-' ∨ c.isDigit then number else wrongType expected

/-- A whole number below a limit. -/
def natural (expected : String) (limit : Nat) : Reader Nat := do
  match ← anyNumber expected with
  | .integer n =>
    if 0 ≤ n ∧ n < limit then pure n.toNat else fail (.wrongValue (.integer n) expected) 0
  | .float x => fail (.wrongType (.float x) expected) 0

def binary64 : Reader Binary64 := do
  let n ← anyNumber "f64"
  pure n.toBinary64

/-- A text where the value has to be one. -/
def quoted (expected : String) : Reader String := do
  match ← peekPastBlank with
  | none => fail .endOfValue 1
  | some '"' => do advance; text
  | some _ => wrongType expected

/-- A text or null. -/
def optionalText : Reader (Option String) := do
  match ← peekPastBlank with
  | some 'n' => do advance; word ['u', 'l', 'l']; pure none
  | _ => do
    let s ← quoted "a string"
    pure (some s)

def null : Reader Unit := do
  match ← peekPastBlank with
  | none => fail .endOfValue 1
  | some 'n' => do advance; word ['u', 'l', 'l']
  | some _ => wrongType "unit"

/-- The value that a word stands for, whose opening quote is in front. -/
def variantName {α : Type} (variants : List (String × α)) : Reader α := do
  advance
  let given ← text
  match variants.find? (·.1 = given) with
  | some v => pure v.2
  | none => fail (.unknownVariant given (variants.map (·.1))) 0

/-- Moves to the only key of an object, whose quote is left in front. -/
def onlyKey : Reader Unit := do
  match ← peekPastBlank with
  | some '"' => pure ()
  | some '}' => fail .expectedValue 1
  | some _ => fail .keyNotText 1
  | none => fail .endOfObject 1

/-- One of a list of words, alone or as the only key of an object with the value null. -/
def variant {α : Type} (variants : List (String × α)) : Reader α := do
  match ← peekPastBlank with
  | none => fail .endOfValue 1
  | some '"' => variantName variants
  | some '{' => do
    advance
    onlyKey
    let v ← variantName variants
    colon
    null
    match ← peekPastBlank with
    | some '}' => do advance; pure v
    | some _ => fail .expectedValue 0
    | none => fail .endOfObject 0
  | some _ => fail .expectedValue 1

/-- A field of a record: its name, and how its value is read and stored. -/
structure Field (σ : Type) where
  name : String
  store : Place → σ → Reader σ

/-- Moves to the next key of an object, whose quote is left in front; false at the end. -/
def nextKey (first : Bool) : Reader Bool := do
  match ← peekPastBlank with
  | none => fail .endOfObject 1
  | some '}' => pure false
  | some c =>
    if first then if c = '"' then pure true else fail .keyNotText 1
    else if c = ',' then do
      advance
      match ← peekPastBlank with
      | some '"' => pure true
      | some '}' => fail .trailingComma 1
      | some _ => fail .keyNotText 1
      | none => fail .endOfValue 1
    else fail .expectedObjectComma 1

/-- Moves to the next element of a list; false at the end. -/
def nextElement (first : Bool) : Reader Bool := do
  match ← peekPastBlank with
  | none => fail .endOfList 1
  | some ']' => pure false
  | some c =>
    if first then pure true
    else if c = ',' then do
      advance
      match ← peekPastBlank with
      | some ']' => fail .trailingComma 1
      | some _ => pure true
      | none => fail .endOfValue 1
    else fail .expectedListComma 1

/-- One member of an object: stores a known field that was not given before, passes over an
unknown one. Yields the names of the fields given so far. -/
def member {σ : Type} (fields : List (Field σ)) (given : List String) (record : σ) :
    Reader (List String × σ) := do
  advance
  let key ← text
  match fields.find? (·.name = key) with
  | none => do
    colon
    skipValue
    pure (given, record)
  | some field =>
    if key ∈ given then refuse .inObject (.repeatedField key)
    else do
      colon
      let record ← field.store .inObject record
      pure (key :: given, record)

/-- The members of an object up to its closing brace. Each of them takes at least one
character. -/
def members {σ : Type} (fields : List (Field σ)) :
    Nat → Bool → List String → σ → Reader σ
  | 0, _, _, record => pure record
  | count + 1, first, given, record => do
    if ← nextKey first then do
      let (given, record) ← member fields given record
      members fields count false given record
    else pure record

/-- The elements of a list, one for each field as long as there are any. -/
def elements {σ : Type} : List (Field σ) → Bool → σ → Reader σ
  | [], _, record => pure record
  | field :: fields, first, record => do
    if ← nextElement first then do
      let record ← field.store .inList record
      elements fields false record
    else pure record

/-- The end of a list that has given every field. -/
def endOfList : Reader Unit := do
  match ← peekPastBlank with
  | some ']' => advance
  | some ',' => do
    advance
    match ← peekPastBlank with
    | some ']' => fail .trailingComma 1
    | _ => fail .trailingCharacters 1
  | some _ => fail .trailingCharacters 1
  | none => fail .endOfList 1

/-- A record with some fields replaced. -/
def record {σ : Type} (expected : String) (fields : List (Field σ)) (start : σ) : Reader σ := do
  match ← peekPastBlank with
  | none => fail .endOfValue 1
  | some '{' => do
    advance
    let r ← fun cs => members fields (cs.length + 1) true [] start cs
    advance
    pure r
  | some '[' => do
    advance
    let r ← elements fields true start
    endOfList
    pure r
  | some _ => wrongType expected

end Reader

end SerialLine.Json
