import SerialLine.Opener
import SerialLine.Session.Operation
/-!
The registry of open ports: at most one session for each port, opened on demand with the default
settings.
-/

set_option autoImplicit false

namespace SerialLine

structure Registry (World : Type) where
  opener : Opener World
  defaults : LineSettings := {}
  sessions : Port → Option (Session World) := fun _ => none

namespace Registry

variable {World : Type}

/-- What an operation leaves behind. -/
structure Result (World α : Type) where
  outcome : Outcome α
  registry : Registry World
  world : World

/-- Changes the value of an operation that succeeds. -/
def Result.map {α β : Type} (f : α → β) (done : Result World α) : Result World β :=
  ⟨done.outcome.map f, done.registry, done.world⟩

/-- Replaces the session of a port. -/
def put (r : Registry World) (p : Port) (s : Option (Session World)) : Registry World :=
  { r with sessions := fun q => if q = p then s else r.sessions q }

def IsOpen (r : Registry World) (p : Port) : Prop := (r.sessions p).isSome

instance (r : Registry World) (p : Port) : Decidable (r.IsOpen p) :=
  inferInstanceAs (Decidable (_ = _))

/-- The open ports in the order of their codes. -/
def openPorts (r : Registry World) : List Port := Port.all.filter fun p => r.IsOpen p

/-- The session of an open port. -/
def session (r : Registry World) (p : Port) : Except SerialError (Session World) :=
  match r.sessions p with
  | some s => .ok s
  | none => .error (.notOpen p)

/-- Whatever keeps a device from being opened makes it unavailable. -/
def unavailable (p : Port) : SerialError → SerialError
  | .deviceUnavailable q reason => .deviceUnavailable q reason
  | e => .deviceUnavailable p e.message

/-- Opens a port: it must be closed, the defaults must be usable, and its device must open. -/
def openPort (r : Registry World) (p : Port) (w : World) : Result World (Session World) :=
  match r.sessions p with
  | some _ => ⟨.error (.alreadyOpen p), r, w⟩
  | none =>
    match r.defaults.validate with
    | .error reason => ⟨.error (.invalidArgument reason), r, w⟩
    | .ok () =>
      match r.opener.openPort p r.defaults w with
      | (.error e, w) => ⟨.error (unavailable p e), r, w⟩
      | (.ok device, w) =>
        let s : Session World := { port := p, device, settings := r.defaults }
        ⟨.ok s, r.put p (some s), w⟩

/-- Closes a port. Its device is released whatever becomes of the pending output. -/
def close (r : Registry World) (p : Port) (w : World) : Result World Unit :=
  match r.sessions p with
  | none => ⟨.error (.notOpen p), r, w⟩
  | some s =>
    let closed := s.close w
    ⟨closed.outcome, r.put p none, closed.world⟩

/-- Closes ports one after another. -/
def closeEach (r : Registry World) (w : World) : List Port → Result World Unit
  | [] => ⟨.ok (), r, w⟩
  | p :: ps =>
    match r.close p w with
    | ⟨.halt h, r, w⟩ => ⟨.halt h, r, w⟩
    | ⟨_, r, w⟩ => closeEach r w ps

/-- Closes every open port. -/
def closeAll (r : Registry World) (w : World) : Result World Unit := r.closeEach w r.openPorts

/-- Does something with the session of an open port. -/
def onSession {α : Type} (r : Registry World) (p : Port) (w : World)
    (f : Session World → World → Session.Result World α) : Result World α :=
  match r.sessions p with
  | none => ⟨.error (.notOpen p), r, w⟩
  | some s =>
    let done := f s w
    ⟨done.outcome, r.put p (some done.session), done.world⟩

def perform (r : Registry World) (p : Port) (op : Operation) (w : World) :
    Result World op.Answer :=
  r.onSession p w fun s w => s.perform w op

/-- Meets a request. The port must be open before its argument is looked at. -/
def meet (r : Registry World) (p : Port) (request : Request) (w : World) :
    Result World Operation.Done :=
  r.onSession p w fun s w => s.meet request w

/-- Diagnostic text: the defaults and the open ports. -/
def text (r : Registry World) : String :=
  "Registry \x7b defaults: " ++ r.defaults.text
    ++ ", open: [" ++ ", ".intercalate (r.openPorts.map Port.name) ++ "] \x7d"

end Registry

end SerialLine
