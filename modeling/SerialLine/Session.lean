import SerialLine.Device
/-!
A session owns the device of an open port together with the settings it was given and two
buffers: the bytes read from the device but not yet asked for, and the bytes accepted for writing
but not yet taken by the device.

Two limits of the machine are left out. There is always memory for a buffer, also for a read buffer
of a size that the settings accept and that no memory has room for. And the counters of bytes have
no largest value, so runs in which `2 ^ 64` bytes are sent or received are not described.
-/

set_option autoImplicit false

namespace SerialLine

/-- Why an operation did not come to an end. -/
inductive Halt
  /-- The clock cannot tell the time at which the operation would have to give up. -/
  | deadlineOverflow
  /-- The device keeps the operation busy for longer than its patience. -/
  | unfinished
  deriving DecidableEq

def Halt.message : Halt → String
  | .deadlineOverflow => "overflow when adding duration to instant"
  | .unfinished => "the device keeps the operation busy"

/-- How an operation ends. -/
inductive Outcome (α : Type)
  | ok (value : α)
  | error (cause : SerialError)
  | halt (reason : Halt)
  deriving DecidableEq

/-- Changes the value of an operation that succeeds. -/
def Outcome.map {α β : Type} (f : α → β) : Outcome α → Outcome β
  | .ok a => .ok (f a)
  | .error e => .error e
  | .halt h => .halt h

structure Session (World : Type) where
  port : Port
  device : Device World
  settings : LineSettings
  termination : Termination := .disabled
  /-- Read from the device, not yet handed out. -/
  staged : Bytes := []
  /-- Accepted for writing, not yet taken by the device. -/
  pending : Bytes := []
  /-- The number of bytes the device has taken, below `2 ^ 64` in the runs described. -/
  sent : Nat := 0
  /-- The number of bytes the device has delivered, below `2 ^ 64` in the runs described. -/
  received : Nat := 0
  closed : Bool := false

namespace Session

variable {World : Type}

/-- What an operation leaves behind. -/
structure Result (World α : Type) where
  outcome : Outcome α
  session : Session World
  world : World

/-- Tells the device about a change and records it once the device has accepted it. -/
def configure (s : Session World) (change : Setting) (w : World) : Result World Unit :=
  match s.device.perform (.set change) w with
  | (.ok _, w) => ⟨.ok (), { s with settings := s.settings.record change }, w⟩
  | (.error e, w) => ⟨.error (.ofDevice e), s, w⟩

/-- Changes a setting on the device. A baud rate of zero does not reach it. -/
def set (s : Session World) (change : Setting) (w : World) : Result World Unit :=
  match change with
  | .baudRate rate =>
    match checkBaudRate rate with
    | .error reason => ⟨.error (.invalidArgument reason), s, w⟩
    | .ok () => s.configure change w
  | _ => s.configure change w

/-- Counts what a push has sent. -/
def countSent (s : Session World) (push : Push) : Session World :=
  { s with sent := s.sent + push.taken }

/-- Takes what a push has sent out of the pending bytes. -/
def dropSent (s : Session World) (push : Push) : Session World :=
  { s with pending := s.pending.drop push.taken, sent := s.sent + push.taken }

/-- Takes bytes in for writing. -/
def buffer (s : Session World) (data : Bytes) : Session World :=
  { s with pending := s.pending ++ data }

/-- Waits until the device has sent everything it holds. -/
def flushDevice (s : Session World) (w : World) : Result World Unit :=
  match s.device.perform .flush w with
  | (.ok _, w) => ⟨.ok (), s, w⟩
  | (.error e, w) => ⟨.error (.ofDevice e), s, w⟩

/-- Pushes the pending bytes and flushes the device. What the device does not take stays pending;
it counts as a timeout once some of it has been taken. -/
def flush (s : Session World) (w : World) : Result World Unit :=
  match s.pending with
  | [] => s.flushDevice w
  | _ :: _ =>
    let (push, w) := s.device.push s.pending w
    let s := s.dropSent push
    match push.ending with
    | .complete => s.flushDevice w
    | .stalled => ⟨.error .timeout, s, w⟩
    | .failed e => ⟨.error (if push.taken = 0 then .io e else .timeout), s, w⟩
    | .unfinished => ⟨.halt .unfinished, s, w⟩

/-- Pushes whole write buffers as long as there are any. A device that stalls, or fails after
taking part of a buffer, ends this without an error. -/
def drainLoop : Nat → Session World → World → Result World Unit
  | 0, s, w => ⟨.halt .unfinished, s, w⟩
  | buffers + 1, s, w =>
    if s.pending.length < s.settings.writeBufferSize then ⟨.ok (), s, w⟩
    else
      let (push, w) := s.device.push (s.pending.take s.settings.writeBufferSize) w
      let s := s.dropSent push
      match push.ending with
      | .complete => drainLoop buffers s w
      | .stalled => ⟨.ok (), s, w⟩
      | .failed e => ⟨if push.taken = 0 then .error (.io e) else .ok (), s, w⟩
      | .unfinished => ⟨.halt .unfinished, s, w⟩

/-- Pushes whole write buffers when the write mode asks for it. With a buffer of at least one byte
there are no more buffers than pending bytes. -/
def drain (s : Session World) (w : World) : Result World Unit :=
  match s.settings.writeMode with
  | .flushOnAccess => ⟨.ok (), s, w⟩
  | .flushWhenFull => drainLoop (s.pending.length + 1) s w

/-- Sets the largest number of bytes asked of the device at a time. -/
def setReadBufferSize (s : Session World) (size : Nat) (w : World) : Result World Unit :=
  match checkBufferSize .read size with
  | .error reason => ⟨.error (.invalidArgument reason), s, w⟩
  | .ok () => ⟨.ok (), { s with settings := { s.settings with readBufferSize := size } }, w⟩

/-- Sets the size of a whole write buffer, and pushes the buffers that are whole by the new
measure. -/
def setWriteBufferSize (s : Session World) (size : Nat) (w : World) : Result World Unit :=
  match checkBufferSize .write size with
  | .error reason => ⟨.error (.invalidArgument reason), s, w⟩
  | .ok () => { s with settings := { s.settings with writeBufferSize := size } }.drain w

/-- Switches the write mode. Pending bytes are flushed before writes go straight to the device. -/
def setWriteMode (s : Session World) (mode : WriteMode) (w : World) : Result World Unit :=
  let switched (s : Session World) : Session World :=
    { s with settings := { s.settings with writeMode := mode } }
  if mode = .flushOnAccess ∧ s.pending ≠ [] then
    match s.flush w with
    | ⟨.ok (), s, w⟩ => ⟨.ok (), switched s, w⟩
    | failed => failed
  else ⟨.ok (), switched s, w⟩

/-- Writes bytes and yields how many were accepted.

Writing through, the device is flushed if it took them all. Buffering, all bytes are accepted
unless the device fails while whole buffers are pushed: then only those it has taken are, and the
rest of them is not kept. -/
def write (s : Session World) (data : Bytes) (w : World) : Result World Nat :=
  match s.settings.writeMode with
  | .flushOnAccess =>
    let (push, w) := s.device.push data w
    let s := s.countSent push
    match push.ending with
    | .complete =>
      match s.flushDevice w with
      | ⟨.ok (), s, w⟩ => ⟨.ok push.taken, s, w⟩
      | ⟨.error e, s, w⟩ => ⟨.error e, s, w⟩
      | ⟨.halt h, s, w⟩ => ⟨.halt h, s, w⟩
    | .stalled => ⟨.ok push.taken, s, w⟩
    | .failed e => ⟨if push.taken = 0 then .error (.io e) else .ok push.taken, s, w⟩
    | .unfinished => ⟨.halt .unfinished, s, w⟩
  | .flushWhenFull =>
    match (s.buffer data).drain w with
    | ⟨.ok (), s', w⟩ => ⟨.ok data.length, s', w⟩
    | ⟨.error e, s', w⟩ =>
      -- buffers leave from the front, so what is left of the data is the end of the pending bytes
      let accepted := s.pending.length + data.length - s'.pending.length - s.pending.length
      let unsent := data.length - accepted
      let kept := { s' with pending := s'.pending.take (s'.pending.length - unsent) }
      ⟨if accepted = 0 then .error e else .ok accepted, kept, w⟩
    | ⟨.halt h, s', w⟩ => ⟨.halt h, s', w⟩

/-- The bytes that can be read without waiting, as far as 32 bits can tell. -/
def bytesAvailable (s : Session World) (w : World) : Result World Nat :=
  match s.device.perform .bytesToRead w with
  | (.ok n, w) => ⟨.ok (min (UInt32.size - 1) (s.staged.length + n)), s, w⟩
  | (.error e, w) => ⟨.error (.ofDevice e), s, w⟩

/-- Asks the device once, for at most one read buffer and for at most the given time. Silence,
interruption and a device that would have to wait are no errors. Memory for the read buffer is
taken for granted. -/
def fill (s : Session World) (limit : Duration) (w : World) : Result World Unit :=
  match s.device.perform (.set (.timeout limit)) w with
  | (.error e, w) => ⟨.error (.ofDevice e), s, w⟩
  | (.ok _, w) =>
    match s.device.perform (.read s.settings.readBufferSize) w with
    | (.ok bytes, w) =>
      ⟨.ok (), { s with staged := s.staged ++ bytes, received := s.received + bytes.length }, w⟩
    | (.error e, w) =>
      match e.kind with
      | .timedOut | .wouldBlock | .interrupted => ⟨.ok (), s, w⟩
      | _ => ⟨.error (.io e), s, w⟩

/-- The length of the frame at the front of the staged bytes. -/
def frameLength (s : Session World) (limit : Nat) : Nat :=
  s.termination.frameLength s.staged limit

/-- Whether the staged bytes begin with a frame that more bytes cannot change. -/
def FrameReady (s : Session World) (limit : Nat) : Prop :=
  s.frameLength limit = limit ∨ s.termination.Completes (s.staged.take (s.frameLength limit))

instance (s : Session World) (limit : Nat) : Decidable (s.FrameReady limit) :=
  inferInstanceAs (Decidable (_ ∨ _))

/-- Fills the staged bytes until they begin with a whole frame or the deadline has passed, but at
least once unless the frame is there from the start. A device that has used up its patience has
used up the time. -/
def gatherLoop (limit deadline : Nat) : Nat → Bool → Session World → World → Result World Unit
  | 0, _, s, w => ⟨.ok (), s, w⟩
  | fills + 1, attempted, s, w =>
    if s.FrameReady limit then ⟨.ok (), s, w⟩
    else
      let remaining := deadline - s.device.now w
      if remaining = 0 ∧ attempted then ⟨.ok (), s, w⟩
      else
        match s.fill ⟨remaining⟩ w with
        | ⟨.ok (), s, w⟩ => gatherLoop limit deadline fills true s w
        | failed => failed

/-- Gives the device its own timeout back. What it answers does not matter. -/
def restoreTimeout (s : Session World) (w : World) : World :=
  (s.device.perform (.set (.timeout s.settings.timeout)) w).2

/-- The clock counts seconds in 63 bits. -/
def clockLimit : Nat := Nat.pow 2 63 * Duration.nanosPerSecond

/-- Reads one frame of at most `limit` bytes. When the timeout passes first, whatever has arrived
is handed out. The device gets back its own timeout, which the fills have shortened. -/
def read (s : Session World) (limit : Nat) (w : World) : Result World Bytes :=
  if limit = 0 then ⟨.ok [], s, w⟩
  else
    let deadline := s.device.now w + s.settings.timeout.nanos
    if clockLimit ≤ deadline then ⟨.halt .deadlineOverflow, s, w⟩
    else
      let gathered := gatherLoop limit deadline (limit + s.device.patience w + 2) false s w
      let s := gathered.session
      let w := s.restoreTimeout gathered.world
      match gathered.outcome with
      | .ok () =>
        let n := s.frameLength limit
        ⟨.ok (s.staged.take n), { s with staged := s.staged.drop n }, w⟩
      | .error e => ⟨.error e, s, w⟩
      | .halt h => ⟨.halt h, s, w⟩

/-- Drops everything received but not yet handed out, here and on the device. -/
def clear (s : Session World) (w : World) : Result World Unit :=
  let s := { s with staged := [] }
  match s.device.perform .clearInput w with
  | (.ok _, w) => ⟨.ok (), s, w⟩
  | (.error e, w) => ⟨.error (.ofDevice e), s, w⟩

/-- Drops everything not yet sent, here and on the device, whose answer does not matter. -/
def discardOutput (s : Session World) (w : World) : Result World Unit :=
  let (_, w) := s.device.perform .clearOutput w
  ⟨.ok (), { s with pending := [] }, w⟩

/-- Sends what is pending and closes the session. What cannot be sent is dropped. -/
def close (s : Session World) (w : World) : Result World Unit :=
  let closed (s : Session World) : Session World := { s with closed := true }
  match s.pending with
  | [] => ⟨.ok (), closed s, w⟩
  | _ :: _ =>
    match s.flush w with
    | ⟨.ok (), s, w⟩ => ⟨.ok (), closed s, w⟩
    | ⟨.error _, s, w⟩ =>
      let dropped := s.discardOutput w
      ⟨.ok (), closed dropped.session, dropped.world⟩
    | ⟨.halt h, s, w⟩ => ⟨.halt h, s, w⟩

/-- Diagnostic text: the settings, and the sizes of the buffers. -/
def text (s : Session World) : String :=
  "Session \x7b port: " ++ s.port.name
    ++ ", settings: " ++ s.settings.text
    ++ ", termination: Termination \x7b terminator: "
    ++ (match s.termination.terminator with
      | some b => "Some(" ++ toString b.toNat ++ ")"
      | none => "None")
    ++ " \x7d, staged: " ++ toString s.staged.length
    ++ ", pending: " ++ toString s.pending.length
    ++ ", closed: " ++ (if s.closed then "true" else "false") ++ " \x7d"

end Session

end SerialLine
