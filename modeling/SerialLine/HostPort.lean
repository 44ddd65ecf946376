import SerialLine.Device
/-!
The serial ports of the host system. They know fewer settings than a line can have; a setting
without a counterpart is refused before the port is asked.
-/

set_option autoImplicit false

namespace SerialLine

namespace Host

inductive Parity
  | none
  | odd
  | even
  deriving DecidableEq

inductive StopBits
  | one
  | two
  deriving DecidableEq

inductive FlowControl
  | none
  | software
  | hardware
  deriving DecidableEq

/-- The buffers that a port can clear. -/
inductive Queue
  | input
  | output
  deriving DecidableEq

/-- What can be asked of a port. -/
inductive Call
  | setBaudRate (rate : Nat)
  | setDataBits (bits : DataBits)
  | setParity (mode : Parity)
  | setStopBits (length : StopBits)
  | setFlowControl (mode : FlowControl)
  | setTimeout (limit : Duration)
  | bytesToRead
  | clear (queue : Queue)
  | read (room : Nat)
  | write (offered : Bytes)
  | flush
  | name
  deriving DecidableEq

abbrev Call.Answer : Call → Type
  | .bytesToRead => Nat
  | .read _ => Bytes
  | .write _ => Nat
  | .name => Option String
  | .setBaudRate _ | .setDataBits _ | .setParity _ | .setStopBits _ | .setFlowControl _
  | .setTimeout _ | .clear _ | .flush => Unit

/-- The kinds of errors of a port. -/
inductive ErrorKind
  | noDevice
  | invalidInput
  | unknown
  | io (kind : IoKind)
  deriving DecidableEq

structure Error where
  kind : ErrorKind
  text : String
  deriving DecidableEq

/-- A missing device counts as not found. -/
def Error.toIo (e : Error) : IoError :=
  match e.kind with
  | .noDevice => ⟨.notFound, e.text⟩
  | .invalidInput => ⟨.invalidInput, e.text⟩
  | .unknown => ⟨.other, e.text⟩
  | .io kind => ⟨kind, e.text⟩

end Host

/-- A serial port of the host. -/
structure HostPort (World : Type) where
  perform : (call : Host.Call) → World → Except Host.Error call.Answer × World
  now : World → Nat
  patience : World → Nat

namespace Host

def unsupported (what : String) : IoError := ⟨.unsupported, what⟩

def Parity.ofLine : SerialLine.Parity → Except IoError Parity
  | .none => .ok .none
  | .odd => .ok .odd
  | .even => .ok .even
  | .mark => .error (unsupported "Mark parity is not supported")
  | .space => .error (unsupported "Space parity is not supported")

def StopBits.ofLine : SerialLine.StopBits → Except IoError StopBits
  | .one => .ok .one
  | .two => .ok .two
  | .onePointFive => .error (unsupported "1.5 stop bits are not supported")

def FlowControl.ofLine : SerialLine.FlowControl → Except IoError FlowControl
  | .none => .ok .none
  | .xonXoff => .ok .software
  | .rtsCts => .ok .hardware
  | .dtrDsr => .error (unsupported "DTR/DSR flow control is not supported")

/-- Settings that a port of the host can take. -/
structure Settings where
  baudRate : Nat
  dataBits : DataBits
  parity : Parity
  stopBits : StopBits
  flowControl : FlowControl
  timeout : Duration
  deriving DecidableEq

/-- The settings of a line for the host: parity is looked at first, then stop bits, then flow
control. -/
def Settings.ofLine (s : LineSettings) : Except IoError Settings := do
  let parity ← Parity.ofLine s.parity
  let stopBits ← StopBits.ofLine s.stopBits
  let flowControl ← FlowControl.ofLine s.flowControl
  pure ⟨s.baudRate, s.dataBits, parity, stopBits, flowControl, s.timeout⟩

end Host

namespace HostPort

variable {World : Type}

def lift {α : Type} (answer : Except Host.Error α × World) : Except IoError α × World :=
  (answer.1.mapError Host.Error.toIo, answer.2)

/-- A port of the host as a device for sessions. -/
def device (port : HostPort World) : Device World where
  perform
    | .set (.baudRate rate), w => lift (port.perform (.setBaudRate rate) w)
    | .set (.dataBits bits), w => lift (port.perform (.setDataBits bits) w)
    | .set (.parity mode), w =>
      match Host.Parity.ofLine mode with
      | .ok mode => lift (port.perform (.setParity mode) w)
      | .error e => (.error e, w)
    | .set (.stopBits length), w =>
      match Host.StopBits.ofLine length with
      | .ok length => lift (port.perform (.setStopBits length) w)
      | .error e => (.error e, w)
    | .set (.flowControl mode), w =>
      match Host.FlowControl.ofLine mode with
      | .ok mode => lift (port.perform (.setFlowControl mode) w)
      | .error e => (.error e, w)
    | .set (.timeout limit), w => lift (port.perform (.setTimeout limit) w)
    | .bytesToRead, w => lift (port.perform .bytesToRead w)
    | .clearInput, w => lift (port.perform (.clear .input) w)
    | .clearOutput, w => lift (port.perform (.clear .output) w)
    | .read room, w => lift (port.perform (.read room) w)
    | .write offered, w => lift (port.perform (.write offered) w)
    | .flush, w => lift (port.perform .flush w)
  now := port.now
  patience := port.patience

end HostPort

end SerialLine
