import SerialLine.Error
import SerialLine.Settings
import SerialLine.Termination
/-!
Devices as sessions see them: a fixed set of calls, each answered from a world that the call may
change. A device also tells the time and how long it can keep a caller busy without getting
anywhere.
-/

set_option autoImplicit false

namespace SerialLine

/-- What a session may ask of its device. -/
inductive Call
  | set (change : Setting)
  | bytesToRead
  | clearInput
  | clearOutput
  /-- Asks for at most so many bytes. -/
  | read (room : Nat)
  | write (offered : Bytes)
  | flush
  deriving DecidableEq

/-- What a call yields: the bytes that were read, the number that was taken or is waiting. -/
abbrev Call.Answer : Call → Type
  | .bytesToRead => Nat
  | .read _ => Bytes
  | .write _ => Nat
  | .set _ | .clearInput | .clearOutput | .flush => Unit

/-- A device in a world. -/
structure Device (World : Type) where
  perform : (call : Call) → World → Except IoError call.Answer × World
  /-- The time in nanoseconds. -/
  now : World → Nat
  /-- How many more calls may bring a caller no progress before a write stalls, fails or goes on,
  or before the time for a read is over. -/
  patience : World → Nat

/-- What became of bytes that were pushed at a device. -/
inductive Ending
  /-- All of them were taken. -/
  | complete
  /-- The device did not take any more in time. -/
  | stalled
  | failed (cause : IoError)
  /-- The device interrupts for longer than its patience. -/
  | unfinished
  deriving DecidableEq

/-- How many bytes a device has taken, and why not more. -/
structure Push where
  taken : Nat
  ending : Ending
  deriving DecidableEq

namespace Device

variable {World : Type}

/-- Brings a device to the given settings; stops at the first change that it rejects. -/
def applyChanges (device : Device World) : List Setting → World → Except IoError Unit × World
  | [], w => (.ok (), w)
  | change :: changes, w =>
    match device.perform (.set change) w with
    | (.ok _, w) => applyChanges device changes w
    | (.error e, w) => (.error e, w)

def apply (device : Device World) (settings : LineSettings) (w : World) :
    Except IoError Unit × World :=
  device.applyChanges settings.changes w

/-- Writes until everything is taken, the device stalls, or it fails. -/
def pushLoop (device : Device World) : Nat → Bytes → World → Push × World
  | _, [], w => (⟨0, .complete⟩, w)
  | 0, _ :: _, w => (⟨0, .unfinished⟩, w)
  | calls + 1, b :: bs, w =>
    match device.perform (.write (b :: bs)) w with
    | (.ok 0, w) => (⟨0, .stalled⟩, w)
    | (.ok (n + 1), w) =>
      let rest := pushLoop device calls (bs.drop n) w
      (⟨n + 1 + rest.1.taken, rest.1.ending⟩, rest.2)
    | (.error e, w) =>
      match e.kind with
      | .interrupted => pushLoop device calls (b :: bs) w
      | .timedOut | .wouldBlock => (⟨0, .stalled⟩, w)
      | _ => (⟨0, .failed e⟩, w)

/-- Pushes bytes at a device. Every call takes a byte or uses up patience. -/
def push (device : Device World) (bytes : Bytes) (w : World) : Push × World :=
  device.pushLoop (bytes.length + device.patience w) bytes w

/-- A device seen from a larger world. -/
def within {Part : Type} (part : World → Part) (replace : Part → World → World)
    (device : Device Part) : Device World where
  perform call w :=
    let answer := device.perform call (part w)
    (answer.1, replace answer.2 w)
  now w := device.now (part w)
  patience w := device.patience (part w)

end Device

end SerialLine
