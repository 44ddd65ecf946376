import SerialLine.Binary64.Shortest
/-!
The reasons for which an argument is refused, and their wording.
-/

set_option autoImplicit false

namespace SerialLine

/-- A buffer, known by its name. -/
structure Buffer where
  name : String
  deriving DecidableEq

def Buffer.read : Buffer := ⟨"read"⟩

def Buffer.write : Buffer := ⟨"write"⟩

/-- Why an argument was refused. -/
inductive Refusal
  | baudRateZero
  | baudRateRange (rate : Int)
  | dataBits (bits : Int)
  | dataBitsRange (bits : Int)
  | parity (code : Int)
  | stopBits (code : Int)
  | flowControl (code : Int)
  | writeMode (code : Int)
  | bufferEmpty (buffer : Buffer)
  | timeoutNotPositive (seconds : Binary64)
  | timeoutRange
  | countNegative
  | bufferMissing (buffer : Buffer)
  /-- A reason given by a device or by a caller. -/
  | stated (reason : String)
  deriving DecidableEq

namespace Refusal

/-- Floating-point numbers in messages are never written with a power of ten, and whole ones have
no point. -/
def layout : Decimal.Layout := ⟨fun _ => true, false, .up⟩

def message : Refusal → String
  | baudRateZero => "baud rate must be positive"
  | baudRateRange rate => s!"baud rate out of range: {rate}"
  | dataBits bits => s!"data bits must be 5, 6, 7 or 8, got {bits}"
  | dataBitsRange bits => s!"data bits out of range: {bits}"
  | parity code => s!"unknown parity code {code}"
  | stopBits code => s!"unknown stop bits code {code} (expected 10, 15 or 20)"
  | flowControl code => s!"unknown flow control code {code}"
  | writeMode code => s!"unknown write mode {code}"
  | bufferEmpty buffer => buffer.name ++ " buffer size must be positive"
  | timeoutNotPositive seconds =>
    "timeout must be a finite, non-negative number of seconds, got " ++ seconds.text layout
  | timeoutRange =>
    "timeout out of range: cannot convert float seconds to Duration: "
      ++ "value is either too big or NaN"
  | countNegative => "count must not be negative"
  | bufferMissing buffer => buffer.name ++ " buffer is null"
  | stated reason => reason

end Refusal

end SerialLine
