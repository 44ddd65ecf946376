import SerialLine.CInterface
import SerialLine.Proofs.Registry.LifeCycle
import SerialLine.Proofs.Session.Answers
/-!
# The gates of a call

A call of the C interface goes through several gates: its buffer, its port, the shared registry, the
state of the port, and then its task with the remaining arguments. `State.answer_cases` is the order
of the gates up to the registry, `State.perform_cases` the gate of the port's state, and
`State.perform_refused` the one of the remaining arguments. Nothing has happened when a gate turns
out to be closed.
-/

set_option autoImplicit false

namespace SerialLine

theorem ErrorKind.status_ne_zero (k : ErrorKind) : k.status ≠ 0 := by cases k <;> decide

theorem Outcome.map_eq_error {α β : Type} {f : α → β} {outcome : Outcome α} {e : SerialError} :
    outcome.map f = .error e ↔ outcome = .error e := by
  cases outcome <;> simp [Outcome.map]

theorem Outcome.map_eq_halt {α β : Type} {f : α → β} {outcome : Outcome α} {reason : Halt} :
    outcome.map f = .halt reason ↔ outcome = .halt reason := by
  cases outcome <;> simp [Outcome.map]

theorem Outcome.map_eq_ok {α β : Type} {f : α → β} {outcome : Outcome α} {b : β} :
    outcome.map f = .ok b ↔ ∃ a, outcome = .ok a ∧ b = f a := by
  cases outcome <;> simp [Outcome.map, eq_comm]

theorem Port.code_range {p : Port} {code : Int} (h : (p.code : Int) = code) :
    0 ≤ code ∧ code ≤ 3 := by
  have hle : p.code ≤ 3 := by cases p <;> decide
  omega

/-- A code stands for a port, or it is not one of the four. -/
theorem Port.ofCode_cases (code : Int) :
    ((0 ≤ code ∧ code ≤ 3) ∧ ∃ p : Port, (p.code : Int) = code ∧ ofCode code = .ok p) ∨
      ¬ (0 ≤ code ∧ code ≤ 3) ∧ ofCode code = .error (.invalidPort code) := by
  unfold ofCode
  cases hfound : ofCode? code with
  | some p =>
    have hcode : (p.code : Int) = code := by simpa using List.find?_some hfound
    exact .inl ⟨code_range hcode, p, hcode, rfl⟩
  | none =>
    have hne : ∀ p : Port, (p.code : Int) ≠ code := fun p ↦ by
      simpa using List.find?_eq_none.mp hfound p (mem_all p)
    have honboard : (0 : Int) ≠ code := hne .onboard
    have hmxp : (1 : Int) ≠ code := hne .mxp
    have husb1 : (2 : Int) ≠ code := hne .usb1
    have husb2 : (3 : Int) ≠ code := hne .usb2
    exact .inr ⟨by omega, rfl⟩

theorem Port.eq_of_code_eq {p q : Port} (h : (p.code : Int) = q.code) : p = q := by
  have hread := ofCode?_code p
  rw [h, ofCode?_code q] at hread
  exact (Option.some.inj hread).symm

/-- Reading is asked for by no code or number. -/
theorem Request.eq_checked_of_operation_eq_read {request : Request} {limit : Nat}
    (h : request.operation = .ok (.read limit)) : request = .checked (.read limit) := by
  cases request with
  | checked op => exact congrArg Request.checked (Except.ok.inj h)
  | baudRate n | readBufferSize n | writeBufferSize n =>
    simp only [operation] at h
    split at h <;> cases h
  | _ =>
    simp only [operation, Except.map] at h
    split at h <;> cases h

namespace CInterface

variable {World : Type}

/-- The buffer and the count of a call do not fit together. -/
def Function.Malformed : Function → Prop
  | .read buffer count | .write buffer count => count < 0 ∨ buffer = none ∧ 0 < count
  | _ => False

theorem Function.check_cases (f : Function) :
    (f.Malformed ∧ ∃ reason, f.check = .error reason) ∨ ¬ f.Malformed ∧ f.check = .ok () := by
  have hbuffer : ∀ which buffer (count : Int),
      ((count < 0 ∨ buffer = none ∧ 0 < count) ∧
          ∃ reason, checkBuffer which buffer count = .error reason) ∨
        ¬ (count < 0 ∨ buffer = none ∧ 0 < count) ∧ checkBuffer which buffer count = .ok () := by
    intro which buffer count
    unfold checkBuffer
    by_cases hnegative : count < 0
    · exact .inl ⟨.inl hnegative, _, if_pos hnegative⟩
    · by_cases hmissing : buffer = none ∧ 0 < count
      · exact .inl ⟨.inr hmissing, .bufferMissing which, by simp [hnegative, hmissing]⟩
      · exact .inr ⟨by simp [hnegative, hmissing], by simp [hnegative, hmissing]⟩
  cases f with
  | read buffer count => exact hbuffer .read buffer count
  | write buffer count => exact hbuffer .write buffer count
  | _ => exact .inr ⟨not_false, rfl⟩

namespace State

/-- The registry that a call works with: the shared one, or else a new one, made from the
configuration of the environment. -/
def Provides (p : State World) (r : Registry World) : Prop :=
  p.registry = some r ∨ p.registry = none ∧ ∃ config,
    Config.ofEnvironment p.environment = .ok config ∧
      r = { opener := p.host.opener config.devices, defaults := config.defaults }

/-- There is no registry, and none can be made. -/
def Unconfigured (p : State World) (fault : Config.Fault) : Prop :=
  p.registry = none ∧ Config.ofEnvironment p.environment = .error fault

theorem ready_cases (p : State World) :
    (∃ fault, p.Unconfigured fault ∧ p.ready = .error fault) ∨
      ∃ r, p.Provides r ∧ p.ready = .ok r := by
  unfold ready
  cases hr : p.registry with
  | some r => exact .inr ⟨r, .inl hr, rfl⟩
  | none =>
    cases hconfig : Config.ofEnvironment p.environment with
    | error fault => exact .inl ⟨fault, ⟨hr, hconfig⟩, rfl⟩
    | ok config => exact .inr ⟨_, .inr ⟨hr, config, hconfig, rfl⟩, rfl⟩

/-- A call meets one registry at most. -/
theorem Provides.unique {p : State World} {r r' : Registry World} (h : p.Provides r)
    (h' : p.Provides r') : r = r' := by
  rcases h with h | ⟨hnone, config, hconfig, rfl⟩ <;>
    rcases h' with h' | ⟨hnone', config', hconfig', rfl⟩
  · exact Option.some.inj (h.symm.trans h')
  · rw [hnone'] at h
    cases h
  · rw [hnone] at h'
    cases h'
  · rw [hconfig] at hconfig'
    cases hconfig'
    rfl

theorem Unconfigured.not_provides {p : State World} {fault : Config.Fault}
    (h : p.Unconfigured fault) (r : Registry World) : ¬ p.Provides r := by
  rintro (hr | ⟨-, config, hconfig, -⟩)
  · rw [h.1] at hr
    cases hr
  · rw [h.2] at hconfig
    cases hconfig

/-- The gates before the registry, in order. -/
theorem answer_cases (p : State World) (w : World) (f : Function) (code : Int) :
    (f.Malformed ∧ ∃ reason, p.answer w f code = ⟨.error (.invalidArgument reason), p, w⟩) ∨
    ¬ f.Malformed ∧ (
      (¬ (0 ≤ code ∧ code ≤ 3) ∧ p.answer w f code = ⟨.error (.invalidPort code), p, w⟩) ∨
      (0 ≤ code ∧ code ≤ 3) ∧ (
        (∃ fault, p.Unconfigured fault ∧ p.answer w f code = ⟨.error fault.toError, p, w⟩) ∨
        ∃ port r, (port.code : Int) = code ∧ p.Provides r ∧
          p.answer w f code = ⟨(perform r port f.task w).outcome,
            { p with registry := some (perform r port f.task w).registry },
            (perform r port f.task w).world⟩)) := by
  unfold answer
  rcases f.check_cases with ⟨hmalformed, reason, hcheck⟩ | ⟨hformed, hcheck⟩ <;>
    rw [hcheck]
  · exact .inl ⟨hmalformed, reason, rfl⟩
  · refine .inr ⟨hformed, ?_⟩
    rcases Port.ofCode_cases code with ⟨hrange, port, hcode, hport⟩ | ⟨hrange, hport⟩ <;>
      rw [hport]
    · refine .inr ⟨hrange, ?_⟩
      unfold withRegistry
      rcases p.ready_cases with ⟨fault, hnone, hready⟩ | ⟨r, hprovides, hready⟩ <;>
        rw [hready]
      · exact .inl ⟨fault, hnone, rfl⟩
      · exact .inr ⟨port, r, hcode, hprovides, rfl⟩
    · exact .inl ⟨hrange, rfl⟩

/-! ### Tasks -/

theorem perform_request_of_closed {r : Registry World} {port : Port} (h : ¬ r.IsOpen port)
    (request : Request) (w : World) :
    perform r port (.request request) w = ⟨.error (.notOpen port), r, w⟩ := by
  show (r.meet port request w).map handedBack = _
  rw [Registry.meet, Registry.onSession_of_closed _ h]
  rfl

theorem perform_request_of_open {r : Registry World} {port : Port} {s : Session World}
    (h : r.sessions port = some s) (request : Request) (w : World) :
    perform r port (.request request) w = ⟨(s.meet request w).outcome.map handedBack,
      r.put port (some (s.meet request w).session), (s.meet request w).world⟩ := by
  show (r.meet port request w).map handedBack = _
  rw [Registry.meet, Registry.onSession_of_open _ h]
  rfl

/-- The port is open, unless it is to be opened. -/
def Fits (r : Registry World) (port : Port) (task : Task) : Prop :=
  task = .openPort ↔ ¬ r.IsOpen port

/-- An error that a task has when the port fits. -/
def IsInner (e : SerialError) : Prop := e.IsOfSession ∨ e.kind = .deviceUnavailable

theorem isInner_of_meet {s : Session World} {request : Request} {w : World} {e : SerialError}
    (h : (s.meet request w).outcome = .error e) : IsInner e := by
  unfold Session.meet at h
  split at h
  · cases h
    exact .inl (SerialError.isOfSession_invalidArgument _)
  · exact .inl (Session.isOfSession_of_error (Outcome.map_eq_error.mp h))

/-- A task on a port that does not fit changes nothing. Otherwise its errors are those of the
session and of its device. -/
theorem perform_cases (r : Registry World) (port : Port) (task : Task) (w : World) :
    (r.IsOpen port ∧ task = .openPort ∧
        perform r port task w = ⟨.error (.alreadyOpen port), r, w⟩) ∨
      (¬ r.IsOpen port ∧ task ≠ .openPort ∧
        perform r port task w = ⟨.error (.notOpen port), r, w⟩) ∨
      Fits r port task ∧ ∀ e, (perform r port task w).outcome = .error e → IsInner e := by
  cases task with
  | openPort =>
    unfold perform Registry.Result.map Fits
    rcases r.openPort_cases port w with ⟨hopen, hdone⟩ | ⟨hclosed, reason, -, hdone⟩ |
      ⟨hclosed, -, e, w', -, hdone⟩ | ⟨hclosed, -, device, w', -, hdone⟩ <;> rw [hdone]
    · exact .inl ⟨hopen, rfl, rfl⟩
    · refine .inr (.inr ⟨iff_of_true rfl hclosed, fun e' he ↦ ?_⟩)
      cases he
      exact .inl (SerialError.isOfSession_invalidArgument reason)
    · refine .inr (.inr ⟨iff_of_true rfl hclosed, fun e' he ↦ ?_⟩)
      cases he
      exact .inr (Registry.kind_unavailable port e)
    · exact .inr (.inr ⟨iff_of_true rfl hclosed, fun e' he ↦ by cases he⟩)
  | close =>
    unfold perform Registry.Result.map Fits
    by_cases hopen : r.IsOpen port
    · obtain ⟨s, hs⟩ := Registry.isOpen_iff.mp hopen
      refine .inr (.inr ⟨iff_of_false (by simp) (absurd hopen), fun e he ↦ ?_⟩)
      rw [Registry.close_of_open hs] at he
      exact absurd (Outcome.map_eq_error.mp he) (s.close_ne_error w e)
    · rw [Registry.close_of_closed hopen]
      exact .inr (.inl ⟨hopen, by simp, rfl⟩)
  | request request =>
    unfold Fits
    by_cases hopen : r.IsOpen port
    · obtain ⟨s, hs⟩ := Registry.isOpen_iff.mp hopen
      refine .inr (.inr ⟨iff_of_false (by simp) (absurd hopen), fun e he ↦ ?_⟩)
      rw [perform_request_of_open hs] at he
      exact isInner_of_meet (Outcome.map_eq_error.mp he)
    · exact .inr (.inl ⟨hopen, by simp, perform_request_of_closed hopen request w⟩)

/-- An argument that is refused is the reason for which nothing is done on an open port. -/
theorem perform_refused {r : Registry World} {port : Port} (hopen : r.IsOpen port)
    {request : Request} {reason : Refusal} (hrequest : request.operation = .error reason)
    (w : World) :
    perform r port (.request request) w = ⟨.error (.invalidArgument reason), r, w⟩ := by
  obtain ⟨s, hs⟩ := Registry.isOpen_iff.mp hopen
  have hmet : s.meet request w = ⟨.error (.invalidArgument reason), s, w⟩ := by
    rw [Session.meet, hrequest]
  rw [perform_request_of_open hs, hmet, r.put_self hs]
  rfl

end State

end CInterface

end SerialLine
