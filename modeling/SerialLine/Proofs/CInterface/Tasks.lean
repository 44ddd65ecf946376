import SerialLine.Proofs.CInterface.Gates
import SerialLine.Proofs.Loopback.Lines
/-!
# Tasks on the ports of a bench

What a task does on a port is a matter of that port: in two registries over benches that have the
same there (`Sources`), it comes to the same (`TaskSame`), on all paths, those of errors included.
Each of them changes one line that the port uses, and the sessions of the other ports stay
(`registry_of_perform`). The clocks need not agree unless a read has a deadline to tell
(`Sources.TellsAlike`).
-/

set_option autoImplicit false

namespace SerialLine

/-- The ends that a port uses: the one in its socket, and the one that its session has. -/
def Bench.Uses (b : Bench) (p : Port) (place : Option (Session Bench)) (i : EndId) : Prop :=
  i = b.socket p ∨ ∃ s, place = some s ∧ s.device = Bench.device i

namespace CInterface

/-- What a task comes to on a port of two registries: the same, by changes of one line only. -/
structure TaskSame (p : Port) (i : EndId) (b b' : Bench)
    (done done' : Registry.Result Bench (Nat × Bytes)) : Prop where
  outcome_eq : done'.outcome = done.outcome
  sessions_eq : done'.registry.sessions p = done.registry.sessions p
  device_eq : ∀ {s}, done.registry.sessions p = some s → s.device = Bench.device i
  alike : Bench.Alike i done.world done'.world
  touches : Bench.Touches i b done.world
  touches' : Bench.Touches i b' done'.world

/-- What a task on a port depends on, in two registries over benches. -/
structure Sources (p : Port) (r r' : Registry Bench) (b b' : Bench) : Prop where
  opener_eq : r.opener = Bench.opener
  opener_eq' : r'.opener = Bench.opener
  defaults_eq : r'.defaults = r.defaults
  sessions_eq : r'.sessions p = r.sessions p
  unplugged_eq : b'.unplugged p = b.unplugged p
  socket_eq : b'.socket p = b.socket p
  held : ∀ {s}, r.sessions p = some s → ∃ i, s.device = Bench.device i
  alike : ∀ {i}, b.Uses p (r.sessions p) i → Bench.Alike i b b'

/-- The clock can tell the deadline of a read that returns. -/
theorem told_of_returns {World : Type} {r : Registry World} {p : Port} {w : World} {limit : Nat}
    (hreturns : (State.perform r p (.request (.checked (.read limit))) w).outcome ≠
      .halt .deadlineOverflow)
    {s : Session World} (hs : r.sessions p = some s) (hlimit : limit ≠ 0) :
    ¬ Session.clockLimit ≤ s.device.now w + s.settings.timeout.nanos := by
  intro hoverflow
  have hread : (s.read limit w).outcome = .halt .deadlineOverflow :=
    Session.read_eq_halt_iff.mpr ⟨rfl, hlimit, hoverflow⟩
  refine hreturns ?_
  rw [State.perform_request_of_open hs]
  simp only [Session.meet, Request.operation, Session.perform, hread]
  rfl

namespace Sources

variable {p : Port} {r r' : Registry Bench} {b b' : Bench} (h : Sources p r r' b b')
include h

/-- An error that changes nothing. -/
theorem error (e : SerialError) : ∃ i, b.Uses p (r.sessions p) i ∧
    TaskSame p i b b' ⟨.error e, r, b⟩ ⟨.error e, r', b'⟩ := by
  obtain ⟨i, huses, hdevice⟩ : ∃ i, b.Uses p (r.sessions p) i ∧
      ∀ s, r.sessions p = some s → s.device = Bench.device i := by
    cases hs : r.sessions p with
    | none => exact ⟨b.socket p, .inl rfl, fun _ hs' ↦ by cases hs'⟩
    | some s =>
      obtain ⟨i, hdevice⟩ := h.held hs
      exact ⟨i, .inr ⟨s, rfl, hdevice⟩, fun s' hs' ↦ Option.some.inj hs' ▸ hdevice⟩
  exact ⟨i, huses, rfl, h.sessions_eq, fun hs ↦ hdevice _ hs, h.alike huses, .refl i b, .refl i b'⟩

/-- Opening comes to the same, by changes of the line in the socket. -/
theorem openPort : ∃ i, b.Uses p (r.sessions p) i ∧
    TaskSame p i b b' (State.perform r p .openPort b) (State.perform r' p .openPort b') := by
  have halike := h.alike (.inl rfl)
  have htouches := b.touches_openPort p r.defaults
  have htouches' := b'.touches_openPort p r.defaults
  have hsame := Bench.openPort_alike h.socket_eq h.unplugged_eq halike r.defaults
  simp only [State.perform, Registry.Result.map, Registry.openPort, h.sessions_eq, h.defaults_eq,
    h.opener_eq, h.opener_eq']
  cases hs : r.sessions p with
  | some s =>
    simp only [Outcome.map, ← hs]
    exact h.error _
  | none =>
    simp only
    cases r.defaults.validate with
    | error reason =>
      simp only [Outcome.map, ← hs]
      exact h.error _
    | ok _ =>
      simp only
      rcases hopened : Bench.opener.openPort p r.defaults b with ⟨answer, c⟩
      rcases hopened' : Bench.opener.openPort p r.defaults b' with ⟨answer', c'⟩
      rw [hopened] at htouches hsame
      rw [hopened', h.socket_eq] at htouches'
      rw [hopened'] at hsame
      obtain rfl : answer' = answer := hsame.1
      refine ⟨b.socket p, .inl rfl, ?_⟩
      cases answer' with
      | error e =>
        refine ⟨rfl, h.sessions_eq, fun hs' ↦ ?_, hsame.2, htouches.1, htouches'.1⟩
        rw [hs] at hs'
        cases hs'
      | ok device =>
        refine ⟨rfl, ?_, fun {s} hs' ↦ ?_, hsame.2, htouches.1, htouches'.1⟩
        · rw [Registry.put_sessions_self, Registry.put_sessions_self]
        · rw [Registry.put_sessions_self] at hs'
          rw [← Option.some.inj hs']
          exact htouches.2 device rfl

/-- What is done with the session comes to the same, by changes of the line of its device. -/
theorem onSession {f : Session Bench → Bench → Session.Result Bench Operation.Done}
    (hf : ∀ {s i}, r.sessions p = some s → s.device = Bench.device i → Bench.Alike i b b' →
      Session.SameOn i (f s b) (f s b') ∧ (f s b).session.device = s.device ∧
        Bench.Touches i b (f s b).world ∧ Bench.Touches i b' (f s b').world) :
    ∃ i, b.Uses p (r.sessions p) i ∧
      TaskSame p i b b' ((r.onSession p b f).map handedBack)
        ((r'.onSession p b' f).map handedBack) := by
  simp only [Registry.Result.map, Registry.onSession, h.sessions_eq]
  cases hs : r.sessions p with
  | none =>
    simp only [Outcome.map, ← hs]
    exact h.error _
  | some s =>
    obtain ⟨i, hdevice⟩ := h.held hs
    have huses : b.Uses p (r.sessions p) i := .inr ⟨s, hs, hdevice⟩
    obtain ⟨hsame, hkept, htouches, htouches'⟩ := hf hs hdevice (h.alike huses)
    refine ⟨i, hs ▸ huses, ?_, ?_, fun {t} ht ↦ ?_, hsame.alike, htouches, htouches'⟩
    · simp only [hsame.outcome_eq]
    · simp only [Registry.put_sessions_self, hsame.session_eq]
    · simp only [Registry.put_sessions_self] at ht
      rw [← Option.some.inj ht, hkept, hdevice]

/-- Closing comes to the same, by changes of the line of the device. -/
theorem close : ∃ i, b.Uses p (r.sessions p) i ∧
    TaskSame p i b b' (State.perform r p .close b) (State.perform r' p .close b') := by
  simp only [State.perform, Registry.Result.map, Registry.close, h.sessions_eq]
  cases hs : r.sessions p with
  | none =>
    simp only [Outcome.map, ← hs]
    exact h.error _
  | some s =>
    obtain ⟨i, hdevice⟩ := h.held hs
    have huses : b.Uses p (r.sessions p) i := .inr ⟨s, hs, hdevice⟩
    have hsame := Session.close_alike hdevice (h.alike huses)
    refine ⟨i, hs ▸ huses, ?_, ?_, fun {t} ht ↦ ?_, hsame.alike,
      Session.touches_close hdevice b, Session.touches_close hdevice b'⟩
    · simp only [hsame.outcome_eq]
    · simp only [Registry.put_sessions_self]
    · simp only [Registry.put_sessions_self] at ht
      cases ht

/-- The clocks can tell the deadline of a read on both benches, or on neither. -/
def TellsAlike (p : Port) (r : Registry Bench) (b b' : Bench) (task : Task) : Prop :=
  ∀ s limit, r.sessions p = some s → task = .request (.checked (.read limit)) → limit ≠ 0 →
    (Session.clockLimit ≤ s.device.now b + s.settings.timeout.nanos ↔
      Session.clockLimit ≤ s.device.now b' + s.settings.timeout.nanos)

/-- They can on both, if the task returns in both registries. -/
theorem tellsAlike {task : Task}
    (hreturns : (State.perform r p task b).outcome ≠ .halt .deadlineOverflow)
    (hreturns' : (State.perform r' p task b').outcome ≠ .halt .deadlineOverflow) :
    TellsAlike p r b b' task := by
  rintro s limit hs rfl hlimit
  have htold := told_of_returns hreturns hs hlimit
  have htold' := told_of_returns hreturns' (h.sessions_eq.trans hs) hlimit
  exact ⟨fun hoverflow ↦ absurd hoverflow htold, fun hoverflow ↦ absurd hoverflow htold'⟩

/-- A task comes to the same, by changes of one line that the port uses. -/
theorem perform {task : Task} (htold : TellsAlike p r b b' task) :
    ∃ i, b.Uses p (r.sessions p) i ∧
      TaskSame p i b b' (State.perform r p task b) (State.perform r' p task b') := by
  cases task with
  | openPort => exact h.openPort
  | close => exact h.close
  | request request =>
    refine h.onSession fun {s i} hs hdevice halike ↦ ?_
    unfold Session.meet
    split
    · exact ⟨⟨rfl, rfl, halike⟩, rfl, .refl i b, .refl i b'⟩
    · next op hop =>
      have hclock : ∀ limit, op = .read limit → limit ≠ 0 →
          (Session.clockLimit ≤ s.device.now b + s.settings.timeout.nanos ↔
            Session.clockLimit ≤ s.device.now b' + s.settings.timeout.nanos) := by
        rintro limit rfl hlimit
        have hrequest := Request.eq_checked_of_operation_eq_read hop
        exact htold s limit hs (congrArg Task.request hrequest) hlimit
      have hsame := Session.perform_alike hdevice halike hclock
      exact ⟨⟨congrArg (·.map fun a ↦ (⟨op, a⟩ : Operation.Done)) hsame.outcome_eq,
        hsame.session_eq, hsame.alike⟩, s.perform_device b op,
        Session.touches_perform hdevice b op, Session.touches_perform hdevice b' op⟩

end Sources

/-- A task leaves opener, defaults and the sessions of the other ports alone. -/
theorem registry_of_perform {World : Type} (r : Registry World) (p : Port) (task : Task)
    (w : World) : (State.perform r p task w).registry.opener = r.opener ∧
      (State.perform r p task w).registry.defaults = r.defaults ∧
        ∀ q, q ≠ p → (State.perform r p task w).registry.sessions q = r.sessions q := by
  have hput : ∀ place, (r.put p place).opener = r.opener ∧ (r.put p place).defaults = r.defaults ∧
      ∀ q, q ≠ p → (r.put p place).sessions q = r.sessions q :=
    fun place ↦ ⟨rfl, rfl, fun q hq ↦ r.put_sessions_of_ne place hq⟩
  have hsame : r.opener = r.opener ∧ r.defaults = r.defaults ∧
      ∀ q, q ≠ p → r.sessions q = r.sessions q := ⟨rfl, rfl, fun _ _ ↦ rfl⟩
  cases task with
  | openPort =>
    unfold State.perform Registry.Result.map
    rcases r.openPort_cases p w with ⟨-, hdone⟩ | ⟨-, _, -, hdone⟩ | ⟨-, -, _, _, -, hdone⟩ |
      ⟨-, -, _, _, -, hdone⟩ <;> rw [hdone]
    · exact hsame
    · exact hsame
    · exact hsame
    · exact hput _
  | close =>
    unfold State.perform Registry.Result.map
    rcases r.close_sessions p w with hdone | ⟨-, hdone⟩ <;> rw [hdone]
    · exact hput none
    · exact hsame
  | request request =>
    by_cases hopen : r.IsOpen p
    · obtain ⟨s, hs⟩ := Registry.isOpen_iff.mp hopen
      rw [State.perform_request_of_open hs]
      exact hput _
    · rw [State.perform_request_of_closed hopen]
      exact hsame

end CInterface

end SerialLine
