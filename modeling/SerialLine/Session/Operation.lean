import SerialLine.Session
import SerialLine.Settings.Seconds
/-!
The operations of a session as values, and the requests that callers make with codes and numbers
in place of checked arguments.
-/

set_option autoImplicit false

namespace SerialLine

inductive Operation
  | set (change : Setting)
  | setReadBufferSize (size : Nat)
  | setWriteBufferSize (size : Nat)
  | setWriteMode (mode : WriteMode)
  | enableTermination (terminator : UInt8)
  | disableTermination
  | bytesAvailable
  | read (limit : Nat)
  | write (data : Bytes)
  | flush
  | clear
  | discardOutput
  deriving DecidableEq

/-- What an operation yields: the bytes that were read, the number that was accepted or is
waiting. -/
abbrev Operation.Answer : Operation → Type
  | .read _ => Bytes
  | .write _ | .bytesAvailable => Nat
  | .set _ | .setReadBufferSize _ | .setWriteBufferSize _ | .setWriteMode _
  | .enableTermination _ | .disableTermination | .flush | .clear | .discardOutput => Unit

/-- An operation with what it has yielded. -/
abbrev Operation.Done := (op : Operation) × op.Answer

namespace Session

variable {World : Type}

def perform (s : Session World) (w : World) : (op : Operation) → Result World op.Answer
  | .set change => s.set change w
  | .setReadBufferSize size => s.setReadBufferSize size w
  | .setWriteBufferSize size => s.setWriteBufferSize size w
  | .setWriteMode mode => s.setWriteMode mode w
  | .enableTermination b => ⟨.ok (), { s with termination := .enabled b }, w⟩
  | .disableTermination => ⟨.ok (), { s with termination := .disabled }, w⟩
  | .bytesAvailable => s.bytesAvailable w
  | .read limit => s.read limit w
  | .write data => s.write data w
  | .flush => s.flush w
  | .clear => s.clear w
  | .discardOutput => s.discardOutput w

end Session

/-- An operation whose argument has yet to be checked. -/
inductive Request
  | dataBits (code : Int)
  | parity (code : Int)
  | stopBits (code : Int)
  | flowControl (code : Int)
  | writeMode (code : Int)
  | timeout (seconds : Binary64)
  | baudRate (rate : Int)
  | readBufferSize (size : Int)
  | writeBufferSize (size : Int)
  | checked (op : Operation)
  deriving DecidableEq

/-- The operation that is asked for, or why there is none. -/
def Request.operation : Request → Except Refusal Operation
  | .dataBits code => (DataBits.ofCode code).map fun bits => .set (.dataBits bits)
  | .parity code => (Parity.ofCode code).map fun mode => .set (.parity mode)
  | .stopBits code => (StopBits.ofCode code).map fun length => .set (.stopBits length)
  | .flowControl code => (FlowControl.ofCode code).map fun mode => .set (.flowControl mode)
  | .writeMode code => (WriteMode.ofCode code).map .setWriteMode
  | .timeout seconds => (Duration.ofBinary64 seconds).map fun limit => .set (.timeout limit)
  | .baudRate rate =>
    if rate < 0 then .error (.baudRateRange rate) else .ok (.set (.baudRate rate.toNat))
  | .readBufferSize size =>
    if size < 0 then .error (.bufferEmpty .read) else .ok (.setReadBufferSize size.toNat)
  | .writeBufferSize size =>
    if size < 0 then .error (.bufferEmpty .write) else .ok (.setWriteBufferSize size.toNat)
  | .checked op => .ok op

namespace Session

variable {World : Type}

/-- Performs the operation that is asked for, if there is one. -/
def meet (s : Session World) (request : Request) (w : World) : Result World Operation.Done :=
  match request.operation with
  | .error reason => ⟨.error (.invalidArgument reason), s, w⟩
  | .ok op =>
    let done := s.perform w op
    ⟨done.outcome.map fun a => ⟨op, a⟩, done.session, done.world⟩

end Session

end SerialLine
