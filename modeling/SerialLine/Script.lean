import SerialLine.Opener
/-!
Scripted devices, which answer from lists given beforehand and keep a trace of what they were
asked. Once its lists are used up, such a device is silent when read from, takes every byte
written to it, and accepts everything else.
-/

set_option autoImplicit false

namespace SerialLine

/-- A call that a scripted device has seen, of a session or of the layer for host ports. -/
inductive Seen
  | call (call : Call)
  | host (call : Host.Call)
  deriving DecidableEq

/-- The kinds of calls that have a list of answers of their own. -/
inductive Method
  | setBaudRate
  | setDataBits
  | setParity
  | setStopBits
  | setFlowControl
  | setTimeout
  | flush
  | bytesToRead
  | clearInput
  | clearOutput
  | clear
  | name
  deriving DecidableEq

/-- The answer to a read: data, of which the rest is kept when there is too much, or an error. -/
inductive ReadItem
  | data (bytes : Bytes)
  | fails (error : Host.Error)
  deriving DecidableEq

/-- The data that an answer brings. -/
def ReadItem.bytes : ReadItem → Bytes
  | .data bytes => bytes
  | .fails _ => []

/-- The answer to a write: at most so many bytes are taken, or an error. -/
inductive WriteItem
  | takes (limit : Nat)
  | fails (error : Host.Error)
  deriving DecidableEq

/-- The answer to any other call. -/
inductive CallItem
  | fails (error : Host.Error)
  | number (n : Nat)
  | text (s : String)
  | passes
  deriving DecidableEq

structure Script where
  reads : List ReadItem := []
  writes : List WriteItem := []
  /-- The answers to other calls, each list in order. -/
  calls : List (Method × CallItem) := []
  timeout : Duration := ⟨0⟩
  clock : Nat := 0
  /-- The nanoseconds that a read or a write takes. -/
  pace : Nat := 0
  trace : List Seen := []
  /-- The bytes the device has taken. -/
  output : Bytes := []
  deriving DecidableEq

namespace Script

def note (s : Script) (seen : Seen) : Script := { s with trace := s.trace ++ [seen] }

/-- The next answer for a kind of call, which is used up. -/
def next (s : Script) (method : Method) : Option CallItem × Script :=
  ((s.calls.find? (·.1 = method)).map (·.2),
    { s with calls := s.calls.eraseP (·.1 = method) })

/-- The answer to a call that yields nothing. -/
def answer (s : Script) (method : Method) : Except Host.Error Unit × Script :=
  match s.next method with
  | (some (.fails e), s) => (.error e, s)
  | (_, s) => (.ok (), s)

/-- A rejected timeout leaves the old one. -/
def setTimeout (s : Script) (limit : Duration) : Except Host.Error Unit × Script :=
  match s.answer .setTimeout with
  | (.ok (), s) => (.ok (), { s with timeout := limit })
  | failed => failed

/-- Without an answer of its own the device counts the data it has yet to deliver. -/
def bytesToRead (s : Script) : Except Host.Error Nat × Script :=
  match s.next .bytesToRead with
  | (some (.fails e), s) => (.error e, s)
  | (some (.number n), s) => (.ok n, s)
  | (_, s) =>
    (.ok (s.reads.foldr (fun item n => item.bytes.length + n) 0), s)

def name (s : Script) : Except Host.Error (Option String) × Script :=
  match s.next .name with
  | (some (.text n), s) => (.ok (some n), s)
  | (_, s) => (.ok none, s)

def read (s : Script) (room : Nat) : Except Host.Error Bytes × Script :=
  match s.reads with
  | [] =>
    (.error ⟨.io .timedOut, "scripted TimedOut"⟩,
      { s with clock := s.clock + s.timeout.nanos + s.pace })
  | .fails e :: items => (.error e, { s with reads := items, clock := s.clock + s.pace })
  | .data bytes :: items =>
    let rest := bytes.drop room
    (.ok (bytes.take room),
      { s with
        reads := if rest.isEmpty then items else .data rest :: items
        clock := s.clock + s.pace })

def write (s : Script) (offered : Bytes) : Except Host.Error Nat × Script :=
  match s.writes with
  | [] =>
    (.ok offered.length,
      { s with output := s.output ++ offered, clock := s.clock + s.pace })
  | .fails e :: items => (.error e, { s with writes := items, clock := s.clock + s.pace })
  | .takes limit :: items =>
    (.ok (min limit offered.length),
      { s with
        writes := items
        output := s.output ++ offered.take limit
        clock := s.clock + s.pace })

/-- No answer of a list brings progress for ever. -/
def patience (s : Script) : Nat := s.reads.length + s.writes.length

/-- The script as a device for sessions. -/
def device : Device Script where
  perform
    | .set change, s =>
      let s := s.note (.call (.set change))
      HostPort.lift <| match change with
        | .baudRate _ => s.answer .setBaudRate
        | .dataBits _ => s.answer .setDataBits
        | .parity _ => s.answer .setParity
        | .stopBits _ => s.answer .setStopBits
        | .flowControl _ => s.answer .setFlowControl
        | .timeout limit => s.setTimeout limit
    | .bytesToRead, s => HostPort.lift (s.note (.call .bytesToRead)).bytesToRead
    | .clearInput, s => HostPort.lift ((s.note (.call .clearInput)).answer .clearInput)
    | .clearOutput, s => HostPort.lift ((s.note (.call .clearOutput)).answer .clearOutput)
    | .read room, s => HostPort.lift ((s.note (.call (.read room))).read room)
    | .write offered, s => HostPort.lift ((s.note (.call (.write offered))).write offered)
    | .flush, s => HostPort.lift ((s.note (.call .flush)).answer .flush)
  now s := s.clock
  patience := patience

/-- The script as a port of the host. -/
def hostPort : HostPort Script where
  perform
    | .setBaudRate rate, s => (s.note (.host (.setBaudRate rate))).answer .setBaudRate
    | .setDataBits bits, s => (s.note (.host (.setDataBits bits))).answer .setDataBits
    | .setParity mode, s => (s.note (.host (.setParity mode))).answer .setParity
    | .setStopBits length, s => (s.note (.host (.setStopBits length))).answer .setStopBits
    | .setFlowControl mode, s => (s.note (.host (.setFlowControl mode))).answer .setFlowControl
    | .setTimeout limit, s => (s.note (.host (.setTimeout limit))).setTimeout limit
    | .bytesToRead, s => (s.note (.host .bytesToRead)).bytesToRead
    | .clear queue, s => (s.note (.host (.clear queue))).answer .clear
    | .read room, s => (s.note (.host (.read room))).read room
    | .write offered, s => (s.note (.host (.write offered))).write offered
    | .flush, s => (s.note (.host .flush)).answer .flush
    | .name, s => (s.note (.host .name)).name
  now s := s.clock
  patience := patience

end Script

/-- What opening a port meets with: a scripted device, under the layer for host ports or not, or
an error. -/
inductive OpenItem
  | device (script : Script) (underHost : Bool)
  | fails (error : SerialError)
  deriving DecidableEq

/-- A rack of scripted devices, to which every successful opening adds one. -/
structure Rack where
  opens : List (Port × OpenItem) := []
  devices : List (Port × Script) := []
  pace : Nat := 0
  deriving DecidableEq

namespace Rack

/-- A device in a given place of the rack. -/
def script (rack : Rack) (i : Nat) : Script := ((rack.devices[i]?).map (·.2)).getD {}

def setScript (rack : Rack) (i : Nat) (script : Script) : Rack :=
  { rack with devices := rack.devices.modify i fun d => (d.1, script) }

def device (underHost : Bool) (i : Nat) : Device Rack :=
  (if underHost then Script.hostPort.device else Script.device).within
    (·.script i) (fun script rack => rack.setScript i script)

/-- Opens a port as its list says. Without an entry the device has nothing to say. The device
stays in the rack even when it rejects the settings. -/
def opener : Opener Rack where
  openPort p settings rack :=
    let item := ((rack.opens.find? (·.1 = p)).map (·.2)).getD (.device {} false)
    let rack := { rack with opens := rack.opens.eraseP (·.1 = p) }
    match item with
    | .fails e => (.error e, rack)
    | .device script underHost =>
      let device := device underHost rack.devices.length
      let rack := { rack with
        devices := rack.devices ++ [(p, { script with pace := rack.pace })] }
      match device.apply settings rack with
      | (.ok (), rack) => (.ok device, rack)
      | (.error e, rack) => (.error (.io e), rack)

end Rack

end SerialLine
