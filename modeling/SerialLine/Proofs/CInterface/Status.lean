import SerialLine.Proofs.CInterface.Gates
/-!
# What calls report

`StatusLaw` says which status a call of the C interface reports when a gate is closed, and that
nothing has changed then. It holds of every call that returns, whatever registry is shared and
whatever its devices do (`status_lawful`). `ReturnLaw` is about the number and the buffer that the
caller gets back, which for writes need a device that takes at most what it is offered
(`returned_lawful`).

`State.run` makes calls one after another, each in an environment of its own. As long as the devices
are reliable and no read has a deadline that the clock cannot tell, every call returns and obeys
both laws, whatever came before it (`calls_lawful`).
-/

set_option autoImplicit false

namespace SerialLine

namespace CInterface

variable {World : Type}

namespace State

/-! ### What is reported -/

/-- What a call reports about a port of a registry, once it has got so far. -/
structure RegistryLaw (p : State World) (r : Registry World) (port : Port) (f : Function)
    (w : World) (status : Int) (p' : State World) (w' : World) : Prop where
  /-- There is a registry afterwards, whatever the call has come to. -/
  kept : ∃ r', p' = { p with registry := some r' }
  alreadyOpen_iff : f = .openPort → (status = -2 ↔ r.IsOpen port)
  notOpen_iff : f ≠ .openPort → (status = -1 ↔ ¬ r.IsOpen port)
  unfit : status = -1 ∨ status = -2 → p' = { p with registry := some r } ∧ w' = w
  /-- The remaining arguments are judged when the port is open. -/
  refused : ∀ {request reason}, f.task = .request request → request.operation = .error reason →
    r.IsOpen port → status = -4 ∧ p' = { p with registry := some r } ∧ w' = w

/-- The order in which a call is judged: its buffer, its port, the configuration of the registry,
and then what the registry says. The calls that do not get to the registry change nothing. -/
structure StatusLaw (p : State World) (w : World) (f : Function) (code : Int) (status : Int)
    (p' : State World) (w' : World) : Prop where
  malformed : f.Malformed → status = -4 ∧ p' = p ∧ w' = w
  invalidPort_iff : ¬ f.Malformed → (status = -3 ↔ ¬ (0 ≤ code ∧ code ≤ 3))
  invalidPort : status = -3 → p' = p ∧ w' = w
  config_iff : ¬ f.Malformed → 0 ≤ code ∧ code ≤ 3 →
    (status = -8 ↔ ∃ fault, p.Unconfigured fault)
  config : status = -8 → p' = p ∧ w' = w
  registry : ¬ f.Malformed → ∀ {port r}, (port.code : Int) = code → p.Provides r →
    RegistryLaw p r port f w status p' w'

/-- What a call hands back besides its status. -/
structure ReturnLaw (p : State World) (w : World) (f : Function) (code : Int)
    (returned : Return) : Prop where
  number_eq_zero : returned.status ≠ 0 → returned.number = 0
  /-- Reads and writes move no more bytes than they were asked to. -/
  number_le : ∀ {buffer count}, f = .read buffer count ∨ f = .write buffer count →
    returned.status = 0 → (returned.number : Int) ≤ count
  /-- A read replaces as many bytes at the front of the buffer as its number says, and leaves the
  others alone. They are the bytes that the session hands out. -/
  read_buffer : ∀ {buffer count}, f = .read buffer count → ∃ bytes,
    bytes.length = returned.number ∧
    (returned.buffer = buffer.map fun old ↦ bytes ++ old.drop bytes.length) ∧
    (returned.status = 0 → ∃ port r s, (port.code : Int) = code ∧ p.Provides r ∧
      r.sessions port = some s ∧ (s.read count.toNat w).outcome = .ok bytes)
  write_buffer : ∀ {buffer count}, f = .write buffer count → returned.buffer = buffer

/-- What a call obeys that returns. -/
structure CallLaw (p : State World) (w : World) (f : Function) (code : Int) (returned : Return)
    (p' : State World) (w' : World) : Prop where
  status : StatusLaw p w f code returned.status p' w'
  returned : ReturnLaw p w f code returned

/-- A call that returns reports zero or the status of its error. -/
theorem call_eq_ok {p : State World} {w : World} {f : Function} {code : Int} {returned : Return}
    (h : (p.call w f code).1 = .ok returned) :
    (∃ n bytes, (p.answer w f code).outcome = .ok (n, bytes) ∧
        returned = ⟨0, n, f.bufferAfter bytes⟩) ∨
      ∃ e, (p.answer w f code).outcome = .error e ∧
        returned = ⟨e.kind.status, 0, f.bufferAfter []⟩ := by
  unfold call at h
  simp only at h
  cases hdone : (p.answer w f code).outcome with
  | ok value =>
    obtain ⟨n, bytes⟩ := value
    rw [hdone] at h
    exact .inl ⟨n, bytes, rfl, (Except.ok.inj h).symm⟩
  | error e =>
    rw [hdone] at h
    exact .inr ⟨e, rfl, (Except.ok.inj h).symm⟩
  | halt reason =>
    rw [hdone] at h
    cases h

theorem call_status_of_error {p : State World} {w : World} {f : Function} {code : Int}
    {returned : Return} (h : (p.call w f code).1 = .ok returned) {e : SerialError}
    (he : (p.answer w f code).outcome = .error e) : returned.status = e.kind.status := by
  rcases call_eq_ok h with ⟨n, bytes, hok, -⟩ | ⟨e', herror, rfl⟩
  · rw [he] at hok
    cases hok
  · rw [he] at herror
    cases herror
    rfl

theorem status_of_inner {e : SerialError} (h : IsInner e) :
    e.kind.status = -4 ∨ e.kind.status = -5 ∨ e.kind.status = -6 ∨ e.kind.status = -7 := by
  rcases h with (h | h | h) | h <;> rw [h] <;> decide

/-- Behind the gates: a port that does not fit is reported, and an argument that is refused. -/
theorem registry_lawful {p : State World} {w : World} {f : Function} {code : Int}
    {returned : Return} (h : (p.call w f code).1 = .ok returned) {port : Port}
    {r : Registry World} (hanswer : p.answer w f code = ⟨(perform r port f.task w).outcome,
      { p with registry := some (perform r port f.task w).registry },
      (perform r port f.task w).world⟩) :
    RegistryLaw p r port f w returned.status (p.call w f code).2.1 (p.call w f code).2.2 ∧
      returned.status ≠ -3 ∧ returned.status ≠ -8 := by
  have htask : f = .openPort ↔ f.task = .openPort := by cases f <;> simp [Function.task]
  have hstate : (p.call w f code).2.1 =
      { p with registry := some (perform r port f.task w).registry } := by
    show (p.answer w f code).state = _
    rw [hanswer]
  have hworld : (p.call w f code).2.2 = (perform r port f.task w).world := by
    show (p.answer w f code).world = _
    rw [hanswer]
  have hfailed : ∀ e, (perform r port f.task w).outcome = .error e →
      returned.status = e.kind.status := fun e he ↦ call_status_of_error h (by rw [hanswer, he])
  have hrefused : ∀ {request reason}, f.task = .request request →
      request.operation = .error reason → r.IsOpen port → returned.status = -4 ∧
        (p.call w f code).2.1 = { p with registry := some r } ∧ (p.call w f code).2.2 = w := by
    intro request reason hrequest hreason hopen
    have hdone := perform_refused hopen hreason w
    rw [← hrequest] at hdone
    rw [hstate, hworld, hdone]
    exact ⟨hfailed (.invalidArgument reason) (by rw [hdone]), rfl, rfl⟩
  rcases perform_cases r port f.task w with ⟨hopen, hopens, hdone⟩ | ⟨hclosed, hopens, hdone⟩ |
    ⟨hfits, hinner⟩
  · have hs : returned.status = -2 := hfailed (.alreadyOpen port) (by rw [hdone])
    refine ⟨⟨⟨_, hstate⟩, fun _ ↦ iff_of_true hs hopen,
      fun hf ↦ absurd (htask.mpr hopens) hf, fun _ ↦ ?_, hrefused⟩, by omega, by omega⟩
    rw [hstate, hworld, hdone]
    exact ⟨rfl, rfl⟩
  · have hs : returned.status = -1 := hfailed (.notOpen port) (by rw [hdone])
    refine ⟨⟨⟨_, hstate⟩, fun hf ↦ absurd (htask.mp hf) hopens,
      fun _ ↦ iff_of_true hs hclosed, fun _ ↦ ?_, hrefused⟩, by omega, by omega⟩
    rw [hstate, hworld, hdone]
    exact ⟨rfl, rfl⟩
  · have hs : returned.status = 0 ∨ returned.status = -4 ∨ returned.status = -5 ∨
        returned.status = -6 ∨ returned.status = -7 := by
      rcases call_eq_ok h with ⟨n, bytes, -, rfl⟩ | ⟨e, herror, rfl⟩
      · exact .inl rfl
      · rw [hanswer] at herror
        exact .inr (status_of_inner (hinner e herror))
    refine ⟨⟨⟨_, hstate⟩, fun hf ↦ iff_of_false (by omega) (hfits.mp (htask.mp hf)),
      fun hf ↦ iff_of_false (by omega) fun hclosed ↦ hf (htask.mpr (hfits.mpr hclosed)),
      fun hunfit ↦ by omega, hrefused⟩, by omega, by omega⟩

/-- Calls are judged in order, whatever registry is shared and whatever its devices do. -/
theorem status_lawful {p : State World} {w : World} {f : Function} {code : Int}
    {returned : Return} (h : (p.call w f code).1 = .ok returned) :
    StatusLaw p w f code returned.status (p.call w f code).2.1 (p.call w f code).2.2 := by
  have hunchanged : ∀ {e}, p.answer w f code = ⟨.error e, p, w⟩ →
      returned.status = e.kind.status ∧ (p.call w f code).2.1 = p ∧
        (p.call w f code).2.2 = w := by
    intro e hanswer
    refine ⟨call_status_of_error h (by rw [hanswer]), ?_, ?_⟩
    · show (p.answer w f code).state = p
      rw [hanswer]
    · show (p.answer w f code).world = w
      rw [hanswer]
  rcases p.answer_cases w f code with ⟨hmalformed, reason, hanswer⟩ | ⟨hformed,
    ⟨hrange, hanswer⟩ | ⟨hrange, ⟨fault, hnone, hanswer⟩ | ⟨port, r, hcode, hprovides, hanswer⟩⟩⟩
  · obtain ⟨hs, hstate, hworld⟩ := hunchanged hanswer
    exact ⟨fun _ ↦ ⟨hs, hstate, hworld⟩, absurd hmalformed, fun _ ↦ ⟨hstate, hworld⟩,
      absurd hmalformed, fun _ ↦ ⟨hstate, hworld⟩, absurd hmalformed⟩
  · obtain ⟨hs, hstate, hworld⟩ := hunchanged hanswer
    refine ⟨fun h ↦ absurd h hformed, fun _ ↦ iff_of_true hs hrange, fun _ ↦ ⟨hstate, hworld⟩,
      fun _ hvalid ↦ absurd hvalid hrange, fun _ ↦ ⟨hstate, hworld⟩, fun _ port r hcode ↦ ?_⟩
    exact absurd (Port.code_range hcode) hrange
  · obtain ⟨hs, hstate, hworld⟩ := hunchanged hanswer
    refine ⟨fun h ↦ absurd h hformed, fun _ ↦ iff_of_false ?_ (not_not_intro hrange),
      fun _ ↦ ⟨hstate, hworld⟩, fun _ _ ↦ iff_of_true hs ⟨fault, hnone⟩,
      fun _ ↦ ⟨hstate, hworld⟩, fun _ port r _ hprovides ↦ absurd hprovides (hnone.not_provides r)⟩
    rw [hs]
    show ¬ (-8 : Int) = -3
    decide
  · obtain ⟨hlaw, hport, hconfig⟩ := registry_lawful h hanswer
    refine ⟨fun h ↦ absurd h hformed, fun _ ↦ iff_of_false hport (not_not_intro hrange),
      fun hs ↦ absurd hs hport, fun _ _ ↦ iff_of_false hconfig ?_, fun hs ↦ absurd hs hconfig,
      fun _ port' r' hcode' hprovides' ↦ ?_⟩
    · rintro ⟨fault, hnone⟩
      exact hnone.not_provides r hprovides
    · obtain rfl : port' = port := Port.eq_of_code_eq (hcode'.trans hcode.symm)
      obtain rfl := hprovides'.unique hprovides
      exact hlaw

/-! ### Reliable devices -/

/-- The devices behind a shared state are reliable: those of its sessions, those that its registry
may open, and those that the host opens for a new registry. -/
structure Sound (p : State World) : Prop where
  registry : ∀ {r}, p.registry = some r → r.Ensures Session.Reliable
  host : ∀ paths, (p.host.opener paths).Supplies Device.Reliable

theorem Sound.provides {p : State World} (h : p.Sound) {r : Registry World} (hr : p.Provides r) :
    r.Ensures Session.Reliable := by
  rcases hr with hr | ⟨-, config, -, rfl⟩
  · exact h.registry hr
  · refine ⟨by simp, fun hvalid {_ _ device _} hopened ↦ ⟨h.host config.devices hopened, ?_⟩⟩
    exact ((config.defaults.validate_eq_ok_iff).mp hvalid).2.2

theorem reliable_meet {s : Session World} (h : s.Reliable) (request : Request) (w : World) :
    (s.meet request w).session.Reliable := by
  unfold Session.meet
  split
  · exact h
  · exact h.perform w _

theorem perform_ensures {r : Registry World} (h : r.Ensures Session.Reliable) (port : Port)
    (task : Task) (w : World) :
    (perform r port task w).registry.Ensures Session.Reliable := by
  cases task with
  | openPort => exact h.openPort port w
  | close => exact h.close port w
  | request request => exact h.onSession (fun s w hs ↦ reliable_meet hs request w) port w

/-- A shared state stays sound whatever is called. -/
theorem Sound.call {p : State World} (h : p.Sound) (w : World) (f : Function) (code : Int) :
    (p.call w f code).2.1.Sound := by
  show (p.answer w f code).state.Sound
  rcases p.answer_cases w f code with ⟨-, _, hanswer⟩ | ⟨-, ⟨-, hanswer⟩ | ⟨-, ⟨_, -, hanswer⟩ |
    ⟨port, r, -, hprovides, hanswer⟩⟩⟩ <;> rw [hanswer]
  · exact h
  · exact h
  · exact h
  · refine ⟨fun {r'} hr' ↦ ?_, h.host⟩
    rw [← Option.some.inj hr']
    exact perform_ensures (h.provides hprovides) port f.task w

/-- Over reliable devices only a read on an open port may fail to return, for at least one byte,
when its deadline cannot be told. -/
theorem exists_read_of_perform_eq_halt {r : Registry World} (h : r.Ensures Session.Reliable)
    {port : Port} {task : Task} {w : World} {reason : Halt}
    (hhalt : (perform r port task w).outcome = .halt reason) :
    reason = .deadlineOverflow ∧ ∃ s limit, task = .request (.checked (.read limit)) ∧
      r.sessions port = some s ∧ limit ≠ 0 ∧
        Session.clockLimit ≤ s.device.now w + s.settings.timeout.nanos := by
  cases task with
  | openPort =>
    unfold perform Registry.Result.map at hhalt
    rcases r.openPort_cases port w with ⟨-, hdone⟩ | ⟨-, _, -, hdone⟩ | ⟨-, -, _, _, -, hdone⟩ |
      ⟨-, -, _, _, -, hdone⟩ <;> rw [hdone] at hhalt <;> cases hhalt
  | close =>
    unfold perform Registry.Result.map at hhalt
    by_cases hopen : r.IsOpen port
    · obtain ⟨s, hs⟩ := Registry.isOpen_iff.mp hopen
      rw [Registry.close_eq_ok hs (h.held hs).device.patient] at hhalt
      cases hhalt
    · rw [Registry.close_of_closed hopen] at hhalt
      cases hhalt
  | request request =>
    by_cases hopen : r.IsOpen port
    · obtain ⟨s, hs⟩ := Registry.isOpen_iff.mp hopen
      have hreliable := h.held hs
      rw [perform_request_of_open hs] at hhalt
      have hmet := Outcome.map_eq_halt.mp hhalt
      unfold Session.meet at hmet
      split at hmet
      · cases hmet
      · next op hop =>
        have hperformed := Outcome.map_eq_halt.mp hmet
        obtain ⟨hreason, limit, rfl⟩ := Session.perform_eq_halt hreliable.device.patient
          hreliable.writeBufferSize_pos hperformed
        obtain rfl := Request.eq_checked_of_operation_eq_read hop
        exact ⟨hreason, s, limit, rfl, hs, (Session.read_eq_halt_iff.mp hperformed).2⟩
    · rw [perform_request_of_closed hopen] at hhalt
      cases hhalt

theorem perform_eq_halt {r : Registry World} (h : r.Ensures Session.Reliable) {port : Port}
    {task : Task} {w : World} {reason : Halt}
    (hhalt : (perform r port task w).outcome = .halt reason) : reason = .deadlineOverflow :=
  (exists_read_of_perform_eq_halt h hhalt).1

theorem call_returns {p : State World} (h : p.Sound) (w : World) (f : Function) (code : Int)
    (hclock : (p.call w f code).1 ≠ .error .deadlineOverflow) :
    ∃ returned, (p.call w f code).1 = .ok returned := by
  have hhalt : ∀ reason, (p.answer w f code).outcome = .halt reason →
      reason = .deadlineOverflow := by
    intro reason hreason
    rcases p.answer_cases w f code with ⟨-, _, hanswer⟩ | ⟨-, ⟨-, hanswer⟩ | ⟨-,
      ⟨_, -, hanswer⟩ | ⟨port, r, -, hprovides, hanswer⟩⟩⟩ <;> rw [hanswer] at hreason
    · cases hreason
    · cases hreason
    · cases hreason
    · exact perform_eq_halt (h.provides hprovides) hreason
  unfold call at hclock ⊢
  simp only at hclock ⊢
  cases hdone : (p.answer w f code).outcome with
  | ok value => exact ⟨_, rfl⟩
  | error e => exact ⟨_, rfl⟩
  | halt reason =>
    rw [hdone, hhalt reason hdone] at hclock
    exact absurd rfl hclock

/-! ### Numbers and buffers -/

/-- An operation that needs no check and succeeds has been performed by the session of the port. -/
theorem answer_eq_ok_of_checked {p : State World} {w : World} {f : Function} {code : Int}
    {op : Operation} (hf : f.task = .request (.checked op)) {value : Nat × Bytes}
    (h : (p.answer w f code).outcome = .ok value) :
    ∃ port r s a, (port.code : Int) = code ∧ p.Provides r ∧ r.sessions port = some s ∧
      (s.perform w op).outcome = .ok a ∧ value = handedBack ⟨op, a⟩ := by
  rcases p.answer_cases w f code with ⟨-, _, hanswer⟩ | ⟨-, ⟨-, hanswer⟩ | ⟨-, ⟨_, -, hanswer⟩ |
    ⟨port, r, hcode, hprovides, hanswer⟩⟩⟩ <;> rw [hanswer] at h
  · cases h
  · cases h
  · cases h
  · rw [hf] at h
    by_cases hopen : r.IsOpen port
    · obtain ⟨s, hs⟩ := Registry.isOpen_iff.mp hopen
      rw [perform_request_of_open hs] at h
      obtain ⟨done, hdone, rfl⟩ := Outcome.map_eq_ok.mp h
      obtain ⟨a, ha, rfl⟩ := Outcome.map_eq_ok.mp hdone
      exact ⟨port, r, s, a, hcode, hprovides, hs, ha, rfl⟩
    · rw [perform_request_of_closed hopen] at h
      cases h

theorem returned_lawful {p : State World} (hsound : p.Sound) {w : World} {f : Function}
    {code : Int} {returned : Return} (h : (p.call w f code).1 = .ok returned) :
    ReturnLaw p w f code returned := by
  have hformed : returned.status = 0 → ¬ f.Malformed := by
    intro hs hmalformed
    have hstatus := ((status_lawful h).malformed hmalformed).1
    omega
  rcases call_eq_ok h with ⟨n, bytes, hok, rfl⟩ | ⟨e, -, rfl⟩
  · refine ⟨fun hs ↦ absurd rfl hs, ?_, ?_, ?_⟩
    · rintro buffer count (rfl | rfl) -
      · obtain ⟨port, r, s, frame, -, -, -, hread, hvalue⟩ := answer_eq_ok_of_checked rfl hok
        cases hvalue
        have hcount : ¬ count < 0 := fun hneg ↦ hformed rfl (.inl hneg)
        have hlength := Session.length_le_of_read_ok hread
        show (bytes.length : Int) ≤ count
        omega
      · obtain ⟨port, r, s, m, -, hprovides, hs, hwrite, hvalue⟩ :=
          answer_eq_ok_of_checked rfl hok
        cases hvalue
        have hcount : ¬ count < 0 := fun hneg ↦ hformed rfl (.inl hneg)
        have hreliable := (hsound.provides hprovides).held hs
        have hlength := Session.le_length_of_write_ok hreliable.device.takesWhatIsOffered hwrite
        rw [List.length_take] at hlength
        show (n : Int) ≤ count
        omega
    · rintro buffer count rfl
      obtain ⟨port, r, s, frame, hcode, hprovides, hs, hread, hvalue⟩ :=
        answer_eq_ok_of_checked rfl hok
      cases hvalue
      exact ⟨bytes, rfl, rfl, fun _ ↦ ⟨port, r, s, hcode, hprovides, hs, hread⟩⟩
    · rintro buffer count rfl
      rfl
  · have hstatus : e.kind.status ≠ 0 := e.kind.status_ne_zero
    refine ⟨fun _ ↦ rfl, fun _ hs ↦ absurd hs hstatus, ?_, ?_⟩
    · rintro buffer count rfl
      exact ⟨[], rfl, rfl, fun hs ↦ absurd hs hstatus⟩
    · rintro buffer count rfl
      rfl

/-! ### Runs -/

/-- A call, with the environment in which it is made. -/
structure Invocation where
  environment : Config.Environment
  function : Function
  code : Int

/-- A call that was made: what it found, what it has returned unless it has halted, and what it
has left behind. -/
structure Step (World : Type) where
  invocation : Invocation
  before : State World
  start : World
  returned : Except Halt Return
  after : State World
  finish : World

def step (p : State World) (w : World) (c : Invocation) : Step World :=
  let p := { p with environment := c.environment }
  let done := p.call w c.function c.code
  ⟨c, p, w, done.1, done.2.1, done.2.2⟩

/-- Makes one call after another. -/
def run (p : State World) (w : World) : List Invocation → List (Step World)
  | [] => []
  | c :: cs => p.step w c :: (p.step w c).after.run (p.step w c).finish cs

/-- If all calls have returned something, none has halted. -/
theorem ne_halt_of_map_returned {steps : List (Step World)} {returns : List Return}
    (h : steps.map (·.returned.toOption) = returns.map some) {reason : Halt} :
    ∀ x ∈ steps, x.returned ≠ .error reason := by
  intro x hx hhalt
  have hmem : x.returned.toOption ∈ returns.map some :=
    h ▸ List.mem_map_of_mem (f := (·.returned.toOption)) hx
  rw [hhalt] at hmem
  simp [Except.toOption] at hmem

/-- A call returns and obeys the law of calls. -/
def Step.Lawful (x : Step World) : Prop :=
  ∃ returned, x.returned = .ok returned ∧ CallLaw x.before x.start x.invocation.function
    x.invocation.code returned x.after x.finish

/-- From no registry or from any that is installed, in environments that may change, every call
returns and obeys the law of calls, by induction on the calls. The devices have to be reliable, and
no deadline may be beyond the clock. -/
theorem calls_lawful (p : State World) (w : World) (calls : List Invocation) (hsound : p.Sound)
    (hclock : ∀ x ∈ p.run w calls, x.returned ≠ .error .deadlineOverflow) :
    ∀ x ∈ p.run w calls, x.Lawful := by
  induction calls generalizing p w with
  | nil => exact fun x hx ↦ absurd hx List.not_mem_nil
  | cons c calls ih =>
    have hplaced : ({ p with environment := c.environment } : State World).Sound :=
      ⟨hsound.registry, hsound.host⟩
    intro x hx
    rcases List.mem_cons.mp hx with rfl | hlater
    · obtain ⟨returned, hreturned⟩ :=
        call_returns hplaced w c.function c.code (hclock _ List.mem_cons_self)
      exact ⟨returned, hreturned, status_lawful hreturned, returned_lawful hplaced hreturned⟩
    · exact ih _ _ (hplaced.call w c.function c.code)
        (fun y hy ↦ hclock y (List.mem_cons_of_mem _ hy)) x hlater

/-- A shared registry that opens the ends of a bench is sound. -/
theorem sound_bench (defaults : LineSettings) : ({
    registry := some { opener := Bench.opener, defaults }
    host := Host.without none } : State Bench).Sound := by
  have hdevice : ∀ i, (Bench.device i).Reliable :=
    fun i ↦ ⟨Bench.device_patient i, Bench.device_takesWhatIsOffered i⟩
  refine ⟨fun {r} hr ↦ ?_, fun paths ↦ Host.without_supplies none paths⟩
  rw [← Option.some.inj hr]
  refine ⟨by simp, fun hvalid {_ _ device _} hopened ↦ ?_⟩
  exact ⟨Bench.opener_supplies hdevice hopened,
    ((LineSettings.validate_eq_ok_iff _).mp hvalid).2.2⟩

/-- A bench is opened, written to, read from and closed through its registry. Before and after, and
with wrong arguments, the calls are turned away. -/
theorem calls_lawful_bench :
    let p : State Bench :=
      { registry := some { opener := Bench.opener }, host := Host.without none }
    let calls : List Invocation :=
      [⟨none, .write none 3, 0⟩, ⟨none, .setBaudRate 9600, 7⟩, ⟨none, .flush, 0⟩,
        ⟨none, .openPort, 0⟩, ⟨none, .openPort, 0⟩, ⟨none, .setParity 9, 0⟩,
        ⟨none, .write (some [1, 2, 3]) 3, 0⟩, ⟨none, .read (some [0, 0, 0, 0]) 4, 0⟩,
        ⟨none, .close, 0⟩, ⟨none, .setParity 9, 0⟩]
    let returns : List Return :=
      [⟨-4, 0, none⟩, ⟨-3, 0, none⟩, ⟨-1, 0, none⟩, ⟨0, 0, none⟩, ⟨-2, 0, none⟩, ⟨-4, 0, none⟩,
        ⟨0, 3, some [1, 2, 3]⟩, ⟨0, 3, some [1, 2, 3, 0]⟩, ⟨0, 0, none⟩, ⟨-1, 0, none⟩]
    (p.run {} calls).map (·.returned.toOption) = returns.map some ∧
      ∀ x ∈ p.run {} calls, x.Lawful := by
  intro p calls returns
  have hreturned : (p.run {} calls).map (·.returned.toOption) = returns.map some := by
    decide +kernel
  exact ⟨hreturned, calls_lawful p {} calls (sound_bench {}) (ne_halt_of_map_returned hreturned)⟩

/-- Without a registry the first call finds no configuration. The next one makes a registry, here on
a host that has no devices. -/
example :
    (({ host := Host.without none } : State Bench).run {}
      [⟨some ("serial.json", .missing), .openPort, 1⟩, ⟨none, .openPort, 1⟩,
        ⟨none, .clear, 1⟩]).map Step.returned =
      [.ok ⟨-8, 0, none⟩, .ok ⟨-5, 0, none⟩, .ok ⟨-1, 0, none⟩] := by rfl

end State

end CInterface

end SerialLine
