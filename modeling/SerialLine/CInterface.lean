import SerialLine.Registry
/-!
The interface for callers that have nothing but numbers and addresses: ports by their codes,
results by a status code next to a number. All callers share one registry, which comes into being
with the first call that needs it.
-/

set_option autoImplicit false

namespace SerialLine.CInterface

/-- The version of the interface. -/
def version : String := "0.1.0"

/-- The functions of the interface with the arguments between port and status. A buffer that is
not given has a null address. -/
inductive Function
  | openPort
  | setBaudRate (rate : Int)
  | setDataBits (bits : Int)
  | setParity (code : Int)
  | setStopBits (code : Int)
  | setFlowControl (code : Int)
  | setWriteMode (code : Int)
  | setTimeout (seconds : Binary64)
  | enableTermination (terminator : UInt8)
  | disableTermination
  | setReadBufferSize (size : Int)
  | setWriteBufferSize (size : Int)
  | bytesReceived
  | read (buffer : Option Bytes) (count : Int)
  | write (buffer : Option Bytes) (count : Int)
  | flush
  | clear
  | close
  deriving DecidableEq

/-- What a function asks of the registry. -/
inductive Task
  | openPort
  | close
  | request (request : Request)
  deriving DecidableEq

namespace Function

def task : Function → Task
  | .openPort => .openPort
  | .close => .close
  | .setBaudRate rate => .request (.baudRate rate)
  | .setDataBits bits => .request (.dataBits bits)
  | .setParity code => .request (.parity code)
  | .setStopBits code => .request (.stopBits code)
  | .setFlowControl code => .request (.flowControl code)
  | .setWriteMode code => .request (.writeMode code)
  | .setTimeout seconds => .request (.timeout seconds)
  | .enableTermination b => .request (.checked (.enableTermination b))
  | .disableTermination => .request (.checked .disableTermination)
  | .setReadBufferSize size => .request (.readBufferSize size)
  | .setWriteBufferSize size => .request (.writeBufferSize size)
  | .bytesReceived => .request (.checked .bytesAvailable)
  | .read _ count => .request (.checked (.read count.toNat))
  | .write buffer count => .request (.checked (.write ((buffer.getD []).take count.toNat)))
  | .flush => .request (.checked .flush)
  | .clear => .request (.checked .clear)

/-- A count must not be negative, and a buffer for more than nothing must be there. -/
def checkBuffer (which : Buffer) (buffer : Option Bytes) (count : Int) : Except Refusal Unit :=
  if count < 0 then .error .countNegative
  else if buffer = none ∧ 0 < count then .error (.bufferMissing which)
  else .ok ()

/-- What is looked at before the port. -/
def check : Function → Except Refusal Unit
  | .read buffer count => checkBuffer .read buffer count
  | .write buffer count => checkBuffer .write buffer count
  | _ => .ok ()

/-- The buffer of the caller after a call: the bytes delivered replace its first ones. -/
def bufferAfter (bytes : Bytes) : Function → Option Bytes
  | .read buffer _ => buffer.map fun old => bytes ++ old.drop bytes.length
  | .write buffer _ => buffer
  | _ => none

end Function

/-- Numbers are handed back in 32 bits. -/
def largestNumber : Nat := Nat.pow 2 31 - 1

/-- The number that an operation hands back, and the bytes for the buffer of the caller. -/
def handedBack : Operation.Done → Nat × Bytes
  | ⟨.read _, bytes⟩ => (bytes.length, bytes)
  | ⟨.write _, n⟩ => (n, [])
  | ⟨.bytesAvailable, n⟩ => (min largestNumber n, [])
  | _ => (0, [])

/-- The shared registry, if there is one, and what a new one is made from. -/
structure State (World : Type) where
  registry : Option (Registry World) := none
  environment : Config.Environment := none
  host : Host World

/-- What a call hands back: the status, the number that it returns, and the caller's buffer. -/
structure Return where
  status : Int
  number : Nat
  buffer : Option Bytes
  deriving DecidableEq

namespace State

variable {World : Type}

/-- What a step leaves behind. -/
structure Result (World α : Type) where
  outcome : Outcome α
  state : State World
  world : World

/-- The shared registry. A new one has the configuration of the environment and opens ports
through the host. -/
def ready (p : State World) : Except Config.Fault (Registry World) :=
  match p.registry with
  | some r => .ok r
  | none => (Config.ofEnvironment p.environment).map fun config =>
      { opener := p.host.opener config.devices, defaults := config.defaults }

/-- Does something with the shared registry, which is kept even if that fails. -/
def withRegistry {α : Type} (p : State World) (w : World)
    (f : Registry World → World → Registry.Result World α) : Result World α :=
  match p.ready with
  | .error fault => ⟨.error fault.toError, p, w⟩
  | .ok r =>
    let done := f r w
    ⟨done.outcome, { p with registry := some done.registry }, done.world⟩

/-- Does what a task asks for on a port. -/
def perform (r : Registry World) (port : Port) (task : Task) (w : World) :
    Registry.Result World (Nat × Bytes) :=
  match task with
  | .openPort => (r.openPort port w).map fun _ => (0, [])
  | .close => (r.close port w).map fun _ => (0, [])
  | .request request => (r.meet port request w).map handedBack

/-- What becomes of a function, before it is reduced to numbers: buffers are looked at first, then
the port, then the registry. -/
def answer (p : State World) (w : World) (f : Function) (code : Int) :
    Result World (Nat × Bytes) :=
  match f.check with
  | .error reason => ⟨.error (.invalidArgument reason), p, w⟩
  | .ok () =>
    match Port.ofCode code with
    | .error e => ⟨.error e, p, w⟩
    | .ok port => p.withRegistry w fun r w => perform r port f.task w

/-- Calls a function. A call that fails returns zero; one that halts does not return. -/
def call (p : State World) (w : World) (f : Function) (code : Int) :
    Except Halt Return × State World × World :=
  let done := p.answer w f code
  (match done.outcome with
    | .ok (n, bytes) => .ok ⟨0, n, f.bufferAfter bytes⟩
    | .error e => .ok ⟨e.kind.status, 0, f.bufferAfter []⟩
    | .halt h => .error h,
    done.state, done.world)

/-- Replaces the shared registry. -/
def install (p : State World) (r : Option (Registry World)) : State World :=
  { p with registry := r }

end State

end SerialLine.CInterface
