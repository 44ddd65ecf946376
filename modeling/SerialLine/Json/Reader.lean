import SerialLine.Binary64.Shortest
/-!
Reading JSON text from left to right. A reader takes characters from the front of the text and
either yields a value or stops at the first fault, which is placed by the number of bytes that were
left unread.
-/

set_option autoImplicit false

namespace SerialLine.Json

/-- JSON numbers have a point or a power of ten, and at most sixteen digits before the point. -/
def numberLayout : Decimal.Layout := ⟨fun leading => -5 ≤ leading ∧ leading ≤ 15, true, .toEven⟩

/-- What a text holds where something else was expected. -/
inductive Found
  | null
  | boolean (value : Bool)
  | integer (value : Int)
  | float (value : Binary64)
  | text (value : String)
  | list
  | object
  deriving DecidableEq

/-- What is wrong with a text. -/
inductive Fault
  | endOfValue
  | endOfText
  | endOfList
  | endOfObject
  | expectedColon
  | expectedListComma
  | expectedObjectComma
  | expectedWord
  | expectedValue
  | badEscape
  | badNumber
  | numberRange
  | controlCharacter
  | keyNotText
  | loneSurrogate
  | cutSurrogate
  | trailingComma
  | trailingCharacters
  | wrongType (found : Found) (expected : String)
  | wrongValue (found : Found) (expected : String)
  | unknownVariant (given : String) (known : List String)
  | repeatedField (name : String)
  | refused (reason : String)
  deriving DecidableEq

/-- A fault, and how many bytes were left unread when it was found. -/
structure Failure where
  fault : Fault
  left : Option Nat
  deriving DecidableEq

abbrev Reader (α : Type) := StateT (List Char) (Except Failure) α

/-- The bytes that a stretch of text takes. -/
def size (cs : List Char) : Nat := cs.foldr (fun c n => c.utf8Size + n) 0

def isBlank (c : Char) : Bool := c = ' ' ∨ c = '\n' ∨ c = '\t' ∨ c = '\r'

namespace Reader

/-- Stops after looking at some more bytes. -/
def fail {α : Type} (fault : Fault) (looked : Nat) : Reader α :=
  fun cs => .error ⟨fault, some (size cs - looked)⟩

/-- The next character, which is not taken. -/
def peek : Reader (Option Char) := fun cs => .ok (cs.head?, cs)

/-- Takes one character. -/
def advance : Reader Unit := fun cs => .ok ((), cs.tail)

def skipBlank : Reader Unit := fun cs => .ok ((), cs.dropWhile isBlank)

/-- The next character that is not blank. -/
def peekPastBlank : Reader (Option Char) := do
  skipBlank
  peek

/-- Takes the characters of a word that has been entered. -/
def word : List Char → Reader Unit
  | [] => pure ()
  | w :: ws => do
    match ← peek with
    | none => fail .endOfValue 0
    | some c => if c = w then do advance; word ws else fail .expectedWord 1

/-- Takes the colon between a key and its value. -/
def colon : Reader Unit := do
  match ← peekPastBlank with
  | some ':' => advance
  | some _ => fail .expectedColon 1
  | none => fail .endOfObject 1

/-- Nothing but blanks is left. -/
def endOfText : Reader Unit := do
  match ← peekPastBlank with
  | none => pure ()
  | some _ => fail .trailingCharacters 1

end Reader

/-- A line and a column, both counted from one. The column is the number of bytes of the line
that have been read. -/
structure Position where
  line : Nat
  column : Nat
  deriving DecidableEq

/-- The position after reading a number of bytes. -/
def Position.after (bytes : List UInt8) (read : Nat) : Position :=
  let before := bytes.take read
  ⟨before.count 10 + 1, (before.reverse.takeWhile (· ≠ 10)).length⟩

/-- A fault in a text with its position. -/
structure Diagnosis where
  fault : Fault
  position : Option Position
  deriving DecidableEq

/-- Reads a value that takes up all the characters but blanks around it. -/
def readAll {α : Type} (reader : Reader α) (cs : List Char) : Except Diagnosis α :=
  match (do let a ← reader; Reader.endOfText; pure a).run cs with
  | .ok (a, _) => .ok a
  | .error ⟨fault, left⟩ =>
    .error ⟨fault, left.map fun n =>
      Position.after (cs.flatMap String.utf8EncodeChar) (size cs - n)⟩

/-- Reads a value that takes up a whole text. -/
def read {α : Type} (reader : Reader α) (text : String) : Except Diagnosis α :=
  readAll reader text.toList

end SerialLine.Json
