import SerialLine.File
import SerialLine.Settings
import SerialLine.Settings.Seconds
import SerialLine.Json.Message
import SerialLine.Json.Printer
/-!
Configurations: the path of the device behind each port, and the settings that sessions start
with. A configuration is read from a JSON text, in which everything may be left out, and written
as one in which nothing is.
-/

set_option autoImplicit false

namespace SerialLine

open Json (Reader Place)

/-- The paths of the devices behind the ports. -/
structure DevicePaths where
  onboard : Option String := some "/dev/ttyS0"
  mxp : Option String := some "/dev/ttyS1"
  usb1 : Option String := none
  usb2 : Option String := none
  deriving DecidableEq

structure Config where
  devices : DevicePaths := {}
  defaults : LineSettings := {}
  deriving DecidableEq

/-- The environment variable with the path of the configuration. -/
def Config.variable : String := "HAL_SERIAL_CONFIG"

namespace DevicePaths

def path? (paths : DevicePaths) : Port → Option String
  | .onboard => paths.onboard
  | .mxp => paths.mxp
  | .usb1 => paths.usb1
  | .usb2 => paths.usb2

def fields : List (Reader.Field DevicePaths) :=
  [⟨Port.onboard.key, fun _ paths => do
      let path ← Reader.optionalText
      pure { paths with onboard := path }⟩,
    ⟨Port.mxp.key, fun _ paths => do
      let path ← Reader.optionalText
      pure { paths with mxp := path }⟩,
    ⟨Port.usb1.key, fun _ paths => do
      let path ← Reader.optionalText
      pure { paths with usb1 := path }⟩,
    ⟨Port.usb2.key, fun _ paths => do
      let path ← Reader.optionalText
      pure { paths with usb2 := path }⟩]

def reader : Reader DevicePaths := Reader.record "struct DevicePaths" fields {}

def toJson (paths : DevicePaths) : Json.Written :=
  .object <| Port.all.map fun p =>
    (p.key, match paths.path? p with
      | some path => .text path
      | none => .null)

end DevicePaths

/-- Passes a value that was read on, unless it is refused. -/
def accept {α : Type} (place : Place) : Except Refusal α → Reader α
  | .ok a => pure a
  | .error reason => Reader.refuse place (.refused (SerialError.invalidArgument reason).message)

def Port.reader : Reader Port := Reader.variant (Port.all.map fun p => (p.key, p))

def Parity.reader : Reader Parity := Reader.variant (Parity.all.map fun p => (p.key, p))

def StopBits.reader : Reader StopBits := Reader.variant (StopBits.all.map fun s => (s.key, s))

def FlowControl.reader : Reader FlowControl :=
  Reader.variant (FlowControl.all.map fun f => (f.key, f))

def WriteMode.reader : Reader WriteMode := Reader.variant (WriteMode.all.map fun m => (m.key, m))

def DataBits.reader (place : Place) : Reader DataBits := do
  let bits ← Reader.natural "u8" UInt8.size
  accept place (DataBits.ofCode bits)

def Duration.reader (place : Place) : Reader Duration := do
  let seconds ← Reader.binary64
  accept place (Duration.ofBinary64 seconds)

namespace LineSettings

def fields : List (Reader.Field LineSettings) :=
  [⟨"baud_rate", fun _ s => do
      let rate ← Reader.natural "u32" UInt32.size
      pure { s with baudRate := rate }⟩,
    ⟨"data_bits", fun place s => do
      let bits ← DataBits.reader place
      pure { s with dataBits := bits }⟩,
    ⟨"parity", fun _ s => do
      let mode ← Parity.reader
      pure { s with parity := mode }⟩,
    ⟨"stop_bits", fun _ s => do
      let length ← StopBits.reader
      pure { s with stopBits := length }⟩,
    ⟨"flow_control", fun _ s => do
      let mode ← FlowControl.reader
      pure { s with flowControl := mode }⟩,
    ⟨"timeout", fun place s => do
      let limit ← Duration.reader place
      pure { s with timeout := limit }⟩,
    ⟨"write_mode", fun _ s => do
      let mode ← WriteMode.reader
      pure { s with writeMode := mode }⟩,
    ⟨"read_buffer_size", fun _ s => do
      let bytes ← Reader.natural "usize" UInt64.size
      pure { s with readBufferSize := bytes }⟩,
    ⟨"write_buffer_size", fun _ s => do
      let bytes ← Reader.natural "usize" UInt64.size
      pure { s with writeBufferSize := bytes }⟩]

def reader : Reader LineSettings := Reader.record "struct LineSettings" fields {}

def toJson (s : LineSettings) : Json.Written :=
  .object
    [("baud_rate", .natural s.baudRate),
      ("data_bits", .natural s.dataBits.code),
      ("parity", .text s.parity.key),
      ("stop_bits", .text s.stopBits.key),
      ("flow_control", .text s.flowControl.key),
      ("timeout", .float s.timeout.toBinary64),
      ("write_mode", .text s.writeMode.key),
      ("read_buffer_size", .natural s.readBufferSize),
      ("write_buffer_size", .natural s.writeBufferSize)]

end LineSettings

namespace Config

def fields : List (Reader.Field Config) :=
  [⟨"devices", fun _ c => do
      let paths ← DevicePaths.reader
      pure { c with devices := paths }⟩,
    ⟨"defaults", fun _ c => do
      let settings ← LineSettings.reader
      pure { c with defaults := settings }⟩]

def reader : Reader Config := Reader.record "struct SerialConfig" fields {}

def toJson (c : Config) : Json.Written :=
  .object [("devices", c.devices.toJson), ("defaults", c.defaults.toJson)]

/-- Why there is no configuration. -/
inductive Fault
  | malformed (diagnosis : Json.Diagnosis)
  | badDefaults (reason : Refusal)
  | unreadable (path : String) (cause : IoError)
  deriving DecidableEq

def Fault.message : Fault → String
  | .malformed diagnosis => "invalid configuration: " ++ diagnosis.message
  | .badDefaults reason =>
    "invalid default line settings: " ++ (SerialError.invalidArgument reason).message
  | .unreadable path cause => "failed to read " ++ path ++ ": " ++ cause.text

def Fault.toError (fault : Fault) : SerialError := .config fault.message

/-- Reads a configuration; its settings have to be usable. -/
def ofJson (text : String) : Except Fault Config :=
  match Json.read reader text with
  | .error diagnosis => .error (.malformed diagnosis)
  | .ok config =>
    match config.defaults.validate with
    | .error reason => .error (.badDefaults reason)
    | .ok () => .ok config

/-- Reads the configuration that a path leads to. -/
def load (path : String) (file : File) : Except Fault Config :=
  match file.readText with
  | .error cause => .error (.unreadable path cause)
  | .ok text => ofJson text

/-- The environment that a configuration is looked up in: the path given by the variable, if it
is set, and what the path leads to. -/
abbrev Environment := Option (String × File)

/-- Without the variable there is the default configuration. -/
def ofEnvironment : Environment → Except Fault Config
  | some (path, file) => load path file
  | none => .ok {}

/-- The text of a configuration. -/
def text (c : Config) : String := String.ofList (c.toJson.pretty 0)

/-- Writes the text of a configuration. -/
def save (c : Config) (destination : Destination) : Except SerialError File :=
  match destination.write c.text with
  | .ok file => .ok file
  | .error cause => .error (.io cause)

end Config

end SerialLine
