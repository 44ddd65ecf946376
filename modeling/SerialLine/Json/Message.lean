import SerialLine.Json.Record
import SerialLine.Text.Quoted
/-!
The wording of faults in JSON text.
-/

set_option autoImplicit false

namespace SerialLine.Json

def Found.message : Found → String
  | .null => "null"
  | .boolean value => "boolean `" ++ (if value then "true" else "false") ++ "`"
  | .integer value => "integer `" ++ toString value ++ "`"
  | .float value => "floating point `" ++ value.text numberLayout ++ "`"
  | .text value => "string " ++ Text.quoted value
  | .list => "sequence"
  | .object => "map"

/-- The words that were expected. -/
def alternatives (known : List String) : String :=
  match known.map fun k => "`" ++ k ++ "`" with
  | [a] => a
  | [a, b] => a ++ " or " ++ b
  | ks => "one of " ++ ", ".intercalate ks

namespace Fault

def message : Fault → String
  | endOfValue => "EOF while parsing a value"
  | endOfText => "EOF while parsing a string"
  | endOfList => "EOF while parsing a list"
  | endOfObject => "EOF while parsing an object"
  | expectedColon => "expected `:`"
  | expectedListComma => "expected `,` or `]`"
  | expectedObjectComma => "expected `,` or `\x7d`"
  | expectedWord => "expected ident"
  | expectedValue => "expected value"
  | badEscape => "invalid escape"
  | badNumber => "invalid number"
  | numberRange => "number out of range"
  | controlCharacter => "control character (\\u0000-\\u001F) found while parsing a string"
  | keyNotText => "key must be a string"
  | loneSurrogate => "lone leading surrogate in hex escape"
  | cutSurrogate => "unexpected end of hex escape"
  | trailingComma => "trailing comma"
  | trailingCharacters => "trailing characters"
  | wrongType found expected => "invalid type: " ++ found.message ++ ", expected " ++ expected
  | wrongValue found expected => "invalid value: " ++ found.message ++ ", expected " ++ expected
  | unknownVariant given known =>
    "unknown variant `" ++ given ++ "`, expected " ++ alternatives known
  | repeatedField name => "duplicate field `" ++ name ++ "`"
  | refused reason => reason

end Fault

def Diagnosis.message (d : Diagnosis) : String :=
  d.fault.message ++ match d.position with
    | some p => s!" at line {p.line} column {p.column}"
    | none => ""

end SerialLine.Json
