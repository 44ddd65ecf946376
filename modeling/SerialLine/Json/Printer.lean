import SerialLine.Json.Reader
/-!
Writing JSON text, on one line or with one member to a line.
-/

set_option autoImplicit false

namespace SerialLine.Json

/-- The letter of a short escape. -/
def shortEscapeLetter? : Char → Option Char
  | '"' => some '"'
  | '\\' => some '\\'
  | '\x08' => some 'b'
  | '\x0c' => some 'f'
  | '\n' => some 'n'
  | '\r' => some 'r'
  | '\t' => some 't'
  | _ => none

/-- A character between quotes. Control characters without a letter are numbered. -/
def escaped (c : Char) : List Char :=
  match shortEscapeLetter? c with
  | some letter => ['\\', letter]
  | none =>
    if c.toNat < 0x20 then
      ['\\', 'u', '0', '0', Nat.digitChar (c.toNat / 16), Nat.digitChar (c.toNat % 16)]
    else [c]

def quote (s : String) : List Char := '"' :: (s.toList.flatMap escaped ++ ['"'])

/-- The start of a line at a depth of nesting. -/
def newline (depth : Nat) : List Char := '\n' :: List.replicate (2 * depth) ' '

/-- The text of a value: on one line, or at a depth of nesting with every member of an object on a
line of its own. -/
structure Written where
  compact : List Char
  pretty : Nat → List Char

namespace Written

/-- A value without members has only one form. -/
def scalar (text : List Char) : Written := ⟨text, fun _ => text⟩

def null : Written := scalar ['n', 'u', 'l', 'l']

def natural (n : Nat) : Written := scalar (Nat.toDigits 10 n)

def float (x : Binary64) : Written := scalar (x.text numberLayout).toList

def text (s : String) : Written := scalar (quote s)

/-- An object with at least one member. -/
def object (members : List (String × Written)) : Written where
  compact :=
    '{' :: ((members.map fun m => quote m.1 ++ ':' :: m.2.compact).intersperse [',']).flatten
      ++ ['}']
  pretty depth :=
    '{' :: ((members.map fun m => newline (depth + 1) ++ quote m.1 ++ ':' :: ' '
        :: m.2.pretty (depth + 1)).intersperse [',']).flatten
      ++ newline depth ++ ['}']

end Written

end SerialLine.Json
