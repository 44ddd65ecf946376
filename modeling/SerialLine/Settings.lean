import SerialLine.Duration
import SerialLine.Settings.Mode
/-!
The settings of a serial line with their default values, the checks they have to pass, and the
single changes of them that a device is told about.
-/

set_option autoImplicit false

namespace SerialLine

/-- Everything a session needs to know about its line. The sizes are in bytes. -/
structure LineSettings where
  baudRate : Nat := 9600
  dataBits : DataBits := .eight
  parity : Parity := .none
  stopBits : StopBits := .one
  flowControl : FlowControl := .none
  timeout : Duration := Duration.ofSeconds 5
  writeMode : WriteMode := .flushOnAccess
  readBufferSize : Nat := 1024
  writeBufferSize : Nat := 1024
  deriving DecidableEq

/-- A baud rate is positive. -/
def checkBaudRate (rate : Nat) : Except Refusal Unit :=
  if rate = 0 then .error .baudRateZero else .ok ()

/-- A buffer has room for at least one byte. -/
def checkBufferSize (buffer : Buffer) (size : Nat) : Except Refusal Unit :=
  if size = 0 then .error (.bufferEmpty buffer) else .ok ()

/-- One parameter that lives on the device, with its new value. -/
inductive Setting
  | baudRate (rate : Nat)
  | dataBits (bits : DataBits)
  | parity (mode : Parity)
  | stopBits (length : StopBits)
  | flowControl (mode : FlowControl)
  | timeout (limit : Duration)
  deriving DecidableEq

namespace LineSettings

/-- Checks the baud rate first, then the read buffer and the write buffer. -/
def validate (s : LineSettings) : Except Refusal Unit := do
  checkBaudRate s.baudRate
  checkBufferSize .read s.readBufferSize
  checkBufferSize .write s.writeBufferSize

/-- The settings after one change. -/
def record (s : LineSettings) : Setting → LineSettings
  | .baudRate rate => { s with baudRate := rate }
  | .dataBits bits => { s with dataBits := bits }
  | .parity mode => { s with parity := mode }
  | .stopBits length => { s with stopBits := length }
  | .flowControl mode => { s with flowControl := mode }
  | .timeout limit => { s with timeout := limit }

/-- The changes that bring a device to these settings, in the order in which it is told. -/
def changes (s : LineSettings) : List Setting :=
  [.baudRate s.baudRate, .dataBits s.dataBits, .parity s.parity, .stopBits s.stopBits,
    .flowControl s.flowControl, .timeout s.timeout]

/-- The usual summary of a line, such as `9600 8N1`. -/
def summary (s : LineSettings) : String :=
  s!"{s.baudRate} {s.dataBits.code}" ++ s.parity.letter ++ s.stopBits.length

/-- The settings as diagnostic text, all nine fields. -/
def text (s : LineSettings) : String :=
  "LineSettings \x7b baud_rate: " ++ toString s.baudRate
    ++ ", data_bits: " ++ s.dataBits.name
    ++ ", parity: " ++ s.parity.name
    ++ ", stop_bits: " ++ s.stopBits.name
    ++ ", flow_control: " ++ s.flowControl.name
    ++ ", timeout: " ++ s.timeout.text
    ++ ", write_mode: " ++ s.writeMode.name
    ++ ", read_buffer_size: " ++ toString s.readBufferSize
    ++ ", write_buffer_size: " ++ toString s.writeBufferSize ++ " \x7d"

theorem validate_eq_ok_iff (s : LineSettings) :
    s.validate = .ok () ↔ 0 < s.baudRate ∧ 0 < s.readBufferSize ∧ 0 < s.writeBufferSize := by
  simp only [validate, checkBaudRate, checkBufferSize, bind, Except.bind]
  by_cases hb : s.baudRate = 0 <;> by_cases hr : s.readBufferSize = 0 <;>
    by_cases hw : s.writeBufferSize = 0 <;> simp [hb, hr, hw, Nat.pos_iff_ne_zero]

end LineSettings

end SerialLine
