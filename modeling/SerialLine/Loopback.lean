import SerialLine.Opener
/-!
A bench of loopback devices. What is written to one end arrives at the input of its far end, which
is the end itself or the other one of a pair. Ends can be made to fail, to stop taking bytes, and
to be waiting for bytes that are on their way.
-/

set_option autoImplicit false

namespace SerialLine

/-- The ends of loopback lines: every port has one of its own, and pairs are numbered. -/
inductive EndId
  | own (port : Port)
  | left (pair : Nat)
  | right (pair : Nat)
  deriving DecidableEq

/-- The end at which bytes written to an end arrive. -/
def EndId.far : EndId → EndId
  | .own p => .own p
  | .left n => .right n
  | .right n => .left n

/-- One end of a loopback line. -/
structure End where
  input : Bytes := []
  /-- Pieces of input that arrive one by one while a read waits. -/
  arriving : List Bytes := []
  settings : LineSettings := {}
  faulted : Bool := false
  /-- How many more bytes can be written, if there is a limit. -/
  budget : Option Nat := none
  flushes : Nat := 0
  /-- The nanoseconds that this end has spent reading and writing. -/
  clock : Nat := 0
  deriving DecidableEq

/-- A bench of loopback ends, some of which are in the sockets of the ports. -/
structure Bench where
  ends : EndId → End := fun _ => {}
  socket : Port → EndId := .own
  /-- The number of pairs that have been wired. -/
  pairs : Nat := 0
  unplugged : Port → Bool := fun _ => false
  /-- The nanoseconds that a read or a write takes. -/
  pace : Nat := 0

namespace Bench

/-- Replaces one end. -/
def put (b : Bench) (i : EndId) (e : End) : Bench :=
  { b with ends := fun j => if j = i then e else b.ends j }

/-- Changes one end. -/
def modify (b : Bench) (i : EndId) (change : End → End) : Bench := b.put i (change (b.ends i))

/-- Lets time pass at one end. -/
def tick (b : Bench) (i : EndId) (nanos : Nat) : Bench :=
  b.modify i fun e => { e with clock := e.clock + nanos }

def disconnected : IoError := ⟨.brokenPipe, "loopback device disconnected"⟩

/-- The answer of an end that works; one that is made to fail only reports so. -/
def unlessFaulted {α : Type} (b : Bench) (i : EndId) (answer : Except IoError α × Bench) :
    Except IoError α × Bench :=
  if (b.ends i).faulted then (.error disconnected, b) else answer

/-- Reads from the input of an end. An empty input is filled by what arrives next, or else the
timeout passes. -/
def readFrom (b : Bench) (i : EndId) (room : Nat) : Except IoError Bytes × Bench :=
  let e := b.ends i
  if room = 0 then (.ok [], b)
  else
    match e.input, e.arriving.dropWhile List.isEmpty with
    | [], [] =>
      (.error ⟨.timedOut, "loopback read timed out"⟩,
        (b.put i { e with arriving := [] }).tick i e.settings.timeout.nanos)
    | [], piece :: pieces =>
      (.ok (piece.take room), b.put i { e with input := piece.drop room, arriving := pieces })
    | input, _ => (.ok (input.take room), b.put i { e with input := input.drop room })

/-- Writes as many bytes as the budget allows. -/
def writeTo (b : Bench) (i : EndId) (offered : Bytes) : Except IoError Nat × Bench :=
  let e := b.ends i
  let n := match e.budget with
    | some budget => min offered.length budget
    | none => offered.length
  if offered ≠ [] ∧ n = 0 then (.error ⟨.timedOut, "loopback write timed out"⟩, b)
  else
    let paid := b.put i { e with budget := e.budget.map (· - n) }
    (.ok n, paid.modify i.far fun far => { far with input := far.input ++ offered.take n })

/-- The device at an end. A faulted end neither reads nor writes, but takes settings. -/
def device (i : EndId) : Device Bench where
  perform
    | .set change, b => (.ok (), b.modify i fun e => { e with settings := e.settings.record change })
    | .bytesToRead, b => b.unlessFaulted i (.ok (min (UInt32.size - 1) (b.ends i).input.length), b)
    | .clearInput, b => (.ok (), b.modify i fun e => { e with input := [] })
    | .clearOutput, b => (.ok (), b)
    | .read room, b => b.unlessFaulted i ((b.readFrom i room).map id (·.tick i b.pace))
    | .write offered, b => b.unlessFaulted i ((b.writeTo i offered).map id (·.tick i b.pace))
    | .flush, b =>
      b.unlessFaulted i (.ok (), b.modify i fun e => { e with flushes := e.flushes + 1 })
  now b := (b.ends i).clock
  patience _ := 0

/-- Adds bytes to the input of an end. -/
def inject (b : Bench) (i : EndId) (bytes : Bytes) : Bench :=
  b.modify i fun e => { e with input := e.input ++ bytes }

/-- Lets pieces of input arrive during the next reads. -/
def send (b : Bench) (i : EndId) (pieces : List Bytes) : Bench :=
  b.modify i fun e => { e with arriving := e.arriving ++ pieces }

/-- Lets everything arrive that is on its way. -/
def settle (b : Bench) (i : EndId) : Bench :=
  b.modify i fun e => { e with input := e.input ++ e.arriving.flatten, arriving := [] }

def setFaulted (b : Bench) (i : EndId) (faulted : Bool) : Bench :=
  b.modify i fun e => { e with faulted := faulted }

/-- Budgets are counted in 64 bits; the largest one means that there is no limit. -/
def setLimit (b : Bench) (i : EndId) (limit : Option Nat) : Bench :=
  b.modify i fun e => { e with budget := limit.filter (· < UInt64.size - 1) }

/-- Wires the sockets of two ports with the ends of a new pair, on which nothing has happened. -/
def connect (b : Bench) (p q : Port) : Bench :=
  { (b.put (.left b.pairs) {}).put (.right b.pairs) {} with
    socket := fun r =>
      if r = q then .right b.pairs else if r = p then .left b.pairs else b.socket r
    pairs := b.pairs + 1 }

def setUnplugged (b : Bench) (p : Port) (unplugged : Bool) : Bench :=
  { b with unplugged := fun r => if r = p then unplugged else b.unplugged r }

/-- Opens the end in the socket of a port, unless it is unplugged. -/
def opener : Opener Bench where
  openPort p settings b :=
    if b.unplugged p then
      (.error (.deviceUnavailable p "no loopback device attached"), b)
    else
      let device := device (b.socket p)
      match device.apply settings b with
      | (.ok (), b) => (.ok device, b)
      | (.error e, b) => (.error (.ofDevice e), b)

end Bench

end SerialLine
