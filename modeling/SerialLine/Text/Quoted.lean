import SerialLine.Text.Invisible
/-!
Text between double quotes as diagnostic messages show it. Quotes and backslashes are escaped, and
so is every character that would not show: some by a letter, the others by their number.
-/

set_option autoImplicit false

namespace SerialLine.Text

/-- A character between the quotes. -/
def shown (c : Char) : List Char :=
  match c with
  | '"' => ['\\', '"']
  | '\\' => ['\\', '\\']
  | '\x00' => ['\\', '0']
  | '\t' => ['\\', 't']
  | '\n' => ['\\', 'n']
  | '\r' => ['\\', 'r']
  | _ =>
    if isInvisible c then ['\\', 'u', '{'] ++ Nat.toDigits 16 c.toNat ++ ['}']
    else [c]

/-- A text between quotes. -/
def quoted (s : String) : String := String.ofList ('"' :: (s.toList.flatMap shown ++ ['"']))

end SerialLine.Text
