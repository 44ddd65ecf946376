import SerialLine.Proofs.Loopback.Wire
import SerialLine.Proofs.Registry.Slots
/-!
# The life cycle of ports

The ports of a registry are opened, closed, looked up and used in any order (`Registry.Move`), and
`Registry.run` keeps a `Step` for every move: the registry and the world before it, and what it has
come to. The laws that a step obeys are stated one kind of move at a time (`OpenLaw`, `CloseLaw`,
`CloseAllLaw`, `LookupLaw`, `PerformLaw`) in terms of the opener and the defaults that the registry
was made from, and `step_lawful` shows them.

Which ports are open after a history is read off its steps: `LastOpened` says that a port has been
opened and not been closed since. `isOpen_move` is this for one step and `isOpen_run` for a whole
run. `life_cycle` puts the laws of the steps and the state after them together.
-/

set_option autoImplicit false

namespace SerialLine

variable {World : Type}

/-- Whether something fails with an error of some kind. -/
def Outcome.FailsWith {α : Type} (outcome : Outcome α) (kind : ErrorKind) : Prop :=
  ∃ e, outcome = .error e ∧ e.kind = kind

/-- A session in which nothing has happened. -/
structure Session.IsNew (s : Session World) (p : Port) (defaults : LineSettings) : Prop where
  port_eq : s.port = p
  settings_eq : s.settings = defaults
  termination_eq : s.termination = .disabled
  buffers_eq : s.staged = [] ∧ s.pending = []
  counters_eq : s.sent = 0 ∧ s.received = 0
  closed_eq : s.closed = false

namespace Registry

/-! ### Histories -/

/-- What can be done with a registry. -/
inductive Move
  | openPort (port : Port)
  | close (port : Port)
  | closeAll
  | lookup (port : Port)
  | perform (port : Port) (op : Operation)

/-- What a move yields: the session that was opened or looked up, or the answer of an operation. -/
abbrev Move.Answer (World : Type) : Move → Type
  | .openPort _ | .lookup _ => Session World
  | .perform _ op => op.Answer
  | .close _ | .closeAll => Unit

/-- Looks up the session of a port. -/
def lookup (r : Registry World) (p : Port) (w : World) : Result World (Session World) :=
  match r.session p with
  | .ok s => ⟨.ok s, r, w⟩
  | .error e => ⟨.error e, r, w⟩

def move (r : Registry World) (w : World) : (m : Move) → Result World (m.Answer World)
  | .openPort p => r.openPort p w
  | .close p => r.close p w
  | .closeAll => r.closeAll w
  | .lookup p => r.lookup p w
  | .perform p op => r.perform p op w

/-- A move that was made. -/
structure Step (World : Type) where
  move : Move
  before : Registry World
  start : World
  done : Result World (move.Answer World)

def step (r : Registry World) (w : World) (m : Move) : Step World := ⟨m, r, w, r.move w m⟩

/-- What a list of moves leaves behind. -/
structure Run (World : Type) where
  steps : List (Step World)
  registry : Registry World
  world : World

/-- Makes one move after another. A move that fails does not keep the next one from being made. -/
def run (r : Registry World) (w : World) : List Move → Run World
  | [] => ⟨[], r, w⟩
  | m :: ms =>
    let rest := (r.move w m).registry.run (r.move w m).world ms
    ⟨r.step w m :: rest.steps, rest.registry, rest.world⟩

namespace Step

/-- The port is opened, with success. -/
def Opens (p : Port) : Step World → Prop
  | ⟨.openPort q, _, _, done⟩ => q = p ∧ ∃ s, done.outcome = .ok s
  | _ => False

/-- The port is closed, alone or with all others. -/
def Closes (p : Port) : Step World → Prop
  | ⟨.close q, _, _, _⟩ => q = p
  | ⟨.closeAll, _, _, _⟩ => True
  | _ => False

/-- If all ports were to be closed, this has come to an end. -/
def ClosesAll : Step World → Prop
  | ⟨.closeAll, _, _, done⟩ => ∀ reason, done.outcome ≠ .halt reason
  | _ => True

end Step

/-- The port has been opened and has not been closed since. -/
def LastOpened (p : Port) (steps : List (Step World)) : Prop :=
  ∃ earlier x later, steps = earlier ++ x :: later ∧ x.Opens p ∧ ∀ y ∈ later, ¬ y.Closes p

/-- The first step of a history counts as long as the port is not closed later. -/
theorem lastOpened_cons {p : Port} {x : Step World} {steps : List (Step World)} :
    LastOpened p (x :: steps) ↔
      LastOpened p steps ∨ x.Opens p ∧ ∀ y ∈ steps, ¬ y.Closes p := by
  constructor
  · rintro ⟨earlier, y, later, hsteps, hopens, hlater⟩
    cases earlier with
    | nil =>
      obtain ⟨rfl, rfl⟩ := List.cons.inj hsteps
      exact .inr ⟨hopens, hlater⟩
    | cons first earlier =>
      obtain ⟨rfl, rfl⟩ := List.cons.inj hsteps
      exact .inl ⟨earlier, y, later, rfl, hopens, hlater⟩
  · rintro (⟨earlier, y, later, rfl, hopens, hlater⟩ | ⟨hopens, hlater⟩)
    · exact ⟨x :: earlier, y, later, rfl, hopens, hlater⟩
    · exact ⟨[], x, steps, rfl, hopens, hlater⟩

/-! ### The laws of single moves -/

section Laws

variable (opener : Opener World) (defaults : LineSettings) (r : Registry World) (p : Port)
  (w : World)

/-- Opening a port. The three reasons for which it fails are looked at in a fixed order, and the
opener is asked only when the first two do not apply. -/
structure OpenLaw (done : Result World (Session World)) : Prop where
  alreadyOpen_iff : done.outcome.FailsWith .alreadyOpen ↔ r.IsOpen p
  invalidArgument_iff : done.outcome.FailsWith .invalidArgument ↔
    ¬ r.IsOpen p ∧ defaults.validate ≠ .ok ()
  deviceUnavailable_iff : done.outcome.FailsWith .deviceUnavailable ↔
    ¬ r.IsOpen p ∧ defaults.validate = .ok () ∧
      ∃ e, (opener.openPort p defaults w).1 = .error e
  ok_iff : (∃ s, done.outcome = .ok s) ↔
    ¬ r.IsOpen p ∧ defaults.validate = .ok () ∧
      ∃ device, (opener.openPort p defaults w).1 = .ok device
  /-- A port that is open is named in the error. -/
  alreadyOpen_eq : r.IsOpen p → done.outcome = .error (.alreadyOpen p)
  failed : ∀ e, done.outcome = .error e →
    done.registry = r ∧ (e.kind ≠ .deviceUnavailable → done.world = w)
  opened : ∀ s, done.outcome = .ok s →
    s.IsNew p defaults ∧ (opener.openPort p defaults w).1 = .ok s.device ∧
      done.registry.sessions p = some s ∧
      ∀ q, q ≠ p → done.registry.sessions q = r.sessions q

/-- Closing a port, whatever its device answers. -/
structure CloseLaw (done : Result World Unit) : Prop where
  notOpen_iff : done.outcome = .error (.notOpen p) ↔ ¬ r.IsOpen p
  succeeds : opener.Supplies Device.Patient → r.IsOpen p → done.outcome = .ok ()
  /-- There is no other error, and it leaves everything as it was. -/
  failed : ∀ e, done.outcome = .error e →
    e = .notOpen p ∧ done.registry = r ∧ done.world = w
  closed : done.registry.sessions p = none ∧
    ∀ q, q ≠ p → done.registry.sessions q = r.sessions q

/-- Closing every open port. -/
structure CloseAllLaw (done : Result World Unit) : Prop where
  ne_error : ∀ e, done.outcome ≠ .error e
  succeeds : opener.Supplies Device.Patient → done.outcome = .ok ()
  closed : done.outcome = .ok () → ∀ q, ¬ done.registry.IsOpen q

/-- Looking up a session. -/
structure LookupLaw (done : Result World (Session World)) : Prop where
  notOpen_iff : done.outcome = .error (.notOpen p) ↔ ¬ r.IsOpen p
  ok_iff : ∀ s, done.outcome = .ok s ↔ r.sessions p = some s
  unchanged : done.registry = r ∧ done.world = w

/-- Performing an operation on the session of a port. -/
structure PerformLaw {α : Type} (done : Result World α) : Prop where
  isOpen_iff : ∀ q, done.registry.IsOpen q ↔ r.IsOpen q
  others_eq : ∀ q, q ≠ p → done.registry.sessions q = r.sessions q
  notOpen : ¬ r.IsOpen p →
    done.outcome = .error (.notOpen p) ∧ done.registry = r ∧ done.world = w

end Laws

/-- A step obeys the law of its kind. -/
def Step.Lawful (opener : Opener World) (defaults : LineSettings) : Step World → Prop
  | ⟨.openPort p, r, w, done⟩ => OpenLaw opener defaults r p w done
  | ⟨.close p, r, w, done⟩ => CloseLaw opener r p w done
  | ⟨.closeAll, _, _, done⟩ => CloseAllLaw opener done
  | ⟨.lookup p, r, w, done⟩ => LookupLaw r p w done
  | ⟨.perform p _, r, w, done⟩ => PerformLaw r p w done

/-- A registry opens its ports with a certain opener and certain defaults, and its devices keep to
their patience if those of the opener do. -/
structure Serves (opener : Opener World) (defaults : LineSettings) (r : Registry World) : Prop where
  opener_eq : r.opener = opener
  defaults_eq : r.defaults = defaults
  patient : opener.Supplies Device.Patient → r.Ensures fun s ↦ s.device.Patient

theorem openPort_lawful (r : Registry World) (p : Port) (w : World) :
    OpenLaw r.opener r.defaults r p w (r.openPort p w) := by
  rcases r.openPort_cases p w with ⟨hopen, hdone⟩ | ⟨hclosed, reason, hvalid, hdone⟩ |
    ⟨hclosed, hvalid, e, w', hopened, hdone⟩ | ⟨hclosed, hvalid, device, w', hopened, hdone⟩ <;>
    rw [hdone]
  · constructor <;> simp [Outcome.FailsWith, SerialError.kind, hopen]
  · constructor <;> simp [Outcome.FailsWith, SerialError.kind, hclosed, hvalid]
  · constructor <;>
      simp [Outcome.FailsWith, kind_unavailable, hclosed, hvalid, hopened]
  · constructor <;> simp only [Outcome.FailsWith, hclosed, hvalid, hopened]
    case opened =>
      intro s hs
      cases hs
      exact ⟨⟨rfl, rfl, rfl, ⟨rfl, rfl⟩, ⟨rfl, rfl⟩, rfl⟩, rfl, r.put_sessions_self p _,
        fun q hq ↦ r.put_sessions_of_ne _ hq⟩
    all_goals simp

theorem close_lawful {opener : Opener World} {r : Registry World}
    (hr : opener.Supplies Device.Patient → r.Ensures fun s ↦ s.device.Patient) (p : Port)
    (w : World) : CloseLaw opener r p w (r.close p w) := by
  by_cases hopen : r.IsOpen p
  · obtain ⟨s, hs⟩ := isOpen_iff.mp hopen
    have hclosed := s.close_ne_error w
    refine ⟨?_, fun hpatient _ ↦ close_eq_ok hs ((hr hpatient).held hs) w, ?_, ?_⟩ <;>
      rw [close_of_open hs]
    · exact ⟨fun h ↦ absurd h (hclosed _), fun h ↦ absurd hopen h⟩
    · exact fun e he ↦ absurd he (hclosed e)
    · exact ⟨r.put_sessions_self p none, fun q hq ↦ r.put_sessions_of_ne _ hq⟩
  · rw [close_of_closed hopen]
    refine ⟨⟨fun _ ↦ hopen, fun _ ↦ rfl⟩, fun _ h ↦ absurd h hopen, fun e he ↦ ?_,
      not_isOpen_iff.mp hopen, fun _ _ ↦ rfl⟩
    cases he
    exact ⟨rfl, rfl, rfl⟩

theorem closeAll_lawful {opener : Opener World} {r : Registry World}
    (hr : opener.Supplies Device.Patient → r.Ensures fun s ↦ s.device.Patient) (w : World) :
    CloseAllLaw opener (r.closeAll w) := by
  have hspec := r.closeEach_spec w r.openPorts
  refine ⟨hspec.ne_error, fun hpatient ↦ hspec.eq_ok (hr hpatient).held, fun hok q hopen ↦ ?_⟩
  obtain ⟨s, hs⟩ := isOpen_iff.mp hopen
  have hlisted := (r.mem_openPorts q).mpr (isOpen_iff.mpr ⟨s, hspec.kept hs⟩)
  exact hspec.closed hok q hlisted hopen

theorem lookup_lawful (r : Registry World) (p : Port) (w : World) :
    LookupLaw r p w (r.lookup p w) := by
  have hclosed := not_isOpen_iff (r := r) (p := p)
  unfold lookup session
  cases hs : r.sessions p with
  | none => exact ⟨by simp [hclosed, hs], by simp [hs], ⟨rfl, rfl⟩⟩
  | some s => exact ⟨by simp [hclosed, hs], by simp [hs], ⟨rfl, rfl⟩⟩

theorem perform_lawful (r : Registry World) (p : Port) (op : Operation) (w : World) :
    PerformLaw r p w (r.perform p op w) where
  isOpen_iff q := isOpen_onSession _ w q
  others_eq _ hq := onSession_sessions_of_ne _ w hq
  notOpen hclosed := by
    rw [perform, onSession_of_closed _ hclosed]
    exact ⟨rfl, rfl, rfl⟩

/-- Every move obeys the law of its kind. -/
theorem step_lawful {opener : Opener World} {defaults : LineSettings} {r : Registry World}
    (hr : r.Serves opener defaults) (w : World) (m : Move) :
    (r.step w m).Lawful opener defaults := by
  obtain ⟨rfl, rfl, hpatient⟩ := hr
  cases m with
  | openPort p => exact r.openPort_lawful p w
  | close p => exact close_lawful hpatient p w
  | closeAll => exact closeAll_lawful hpatient w
  | lookup p => exact r.lookup_lawful p w
  | perform p op => exact r.perform_lawful p op w

/-- Opener and defaults stay what they are. -/
theorem move_source (r : Registry World) (w : World) (m : Move) :
    (r.move w m).registry.opener = r.opener ∧ (r.move w m).registry.defaults = r.defaults := by
  cases m with
  | openPort p =>
    rcases r.openPort_cases p w with ⟨-, hdone⟩ | ⟨-, _, -, hdone⟩ | ⟨-, -, _, _, -, hdone⟩ |
      ⟨-, -, _, _, -, hdone⟩ <;> rw [move, hdone] <;> exact ⟨rfl, rfl⟩
  | close p => exact r.close_source p w
  | closeAll => exact (r.closeEach_spec w r.openPorts).source_eq
  | lookup p => exact ((r.lookup_lawful p w).unchanged.1).symm ▸ ⟨rfl, rfl⟩
  | perform p op =>
    rw [move, perform]
    by_cases hopen : r.IsOpen p
    · obtain ⟨s, hs⟩ := isOpen_iff.mp hopen
      rw [onSession_of_open _ hs]
      exact ⟨rfl, rfl⟩
    · rw [onSession_of_closed _ hopen]
      exact ⟨rfl, rfl⟩

/-- A property that operations keep lasts through every move. -/
theorem Ensures.move {property : Session World → Prop} {r : Registry World}
    (h : r.Ensures property)
    (hop : ∀ s w op, property s → property (Session.perform s w op).session) (w : World)
    (m : Move) : (r.move w m).registry.Ensures property := by
  cases m with
  | openPort p => exact h.openPort p w
  | close p => exact h.close p w
  | closeAll => exact h.closeAll w
  | lookup p => exact (r.lookup_lawful p w).unchanged.1.symm ▸ h
  | perform p op => exact h.onSession (fun s w hs ↦ hop s w op hs) p w

theorem Serves.move {opener : Opener World} {defaults : LineSettings} {r : Registry World}
    (hr : r.Serves opener defaults) (w : World) (m : Move) :
    (r.move w m).registry.Serves opener defaults where
  opener_eq := (r.move_source w m).1.trans hr.opener_eq
  defaults_eq := (r.move_source w m).2.trans hr.defaults_eq
  patient hpatient := (hr.patient hpatient).move
    (fun s w op hs ↦ by rwa [s.perform_device w op]) w m

/-! ### Which ports are open -/

/-- A port is open after a move if the move has opened it, or if it was open and has not been
closed. -/
theorem isOpen_move {r : Registry World} {w : World} {m : Move} (hall : (r.step w m).ClosesAll)
    (p : Port) : (r.move w m).registry.IsOpen p ↔
      (r.step w m).Opens p ∨ r.IsOpen p ∧ ¬ (r.step w m).Closes p := by
  cases m with
  | openPort q =>
    show (r.openPort q w).registry.IsOpen p ↔
      (q = p ∧ ∃ s, (r.openPort q w).outcome = .ok s) ∨ r.IsOpen p ∧ ¬ False
    rcases r.openPort_cases q w with ⟨-, hdone⟩ | ⟨-, _, -, hdone⟩ | ⟨-, -, _, _, -, hdone⟩ |
      ⟨-, -, _, _, -, hdone⟩ <;> rw [hdone]
    case inr.inr.inr =>
      rw [isOpen_put_some]
      simp [eq_comm]
    all_goals simp
  | close q =>
    show (r.close q w).registry.IsOpen p ↔ False ∨ r.IsOpen p ∧ ¬ q = p
    rw [isOpen_close, false_or, and_comm, ne_comm]
  | closeAll =>
    have hlaw := r.closeEach_spec w r.openPorts
    show (r.closeAll w).registry.IsOpen p ↔ False ∨ r.IsOpen p ∧ ¬ True
    have hok : (r.closeAll w).outcome = .ok () := by
      change ∀ reason, (r.closeAll w).outcome ≠ .halt reason at hall
      cases hdone : (r.closeAll w).outcome with
      | ok _ => rfl
      | error e => exact absurd hdone (hlaw.ne_error e)
      | halt reason => exact absurd hdone (hall reason)
    have hclosed : ¬ (r.closeAll w).registry.IsOpen p := by
      intro hopen
      obtain ⟨s, hs⟩ := isOpen_iff.mp hopen
      exact hlaw.closed hok p ((r.mem_openPorts p).mpr (isOpen_iff.mpr ⟨s, hlaw.kept hs⟩)) hopen
    simp [hclosed]
  | lookup q =>
    show (r.lookup q w).registry.IsOpen p ↔ False ∨ r.IsOpen p ∧ ¬ False
    rw [(r.lookup_lawful q w).unchanged.1]
    simp
  | perform q op =>
    show (r.perform q op w).registry.IsOpen p ↔ False ∨ r.IsOpen p ∧ ¬ False
    rw [(r.perform_lawful q op w).isOpen_iff p]
    simp

/-- A port is open after a run if it was opened and not closed since, or if it was open at the
start and has not been closed at all. -/
theorem isOpen_run (r : Registry World) (w : World) (ms : List Move) (p : Port)
    (hall : ∀ x ∈ (r.run w ms).steps, x.ClosesAll) :
    (r.run w ms).registry.IsOpen p ↔ LastOpened p (r.run w ms).steps ∨
      r.IsOpen p ∧ ∀ x ∈ (r.run w ms).steps, ¬ x.Closes p := by
  induction ms generalizing r w with
  | nil => simp [run, LastOpened]
  | cons m ms ih =>
    have hfirst := isOpen_move (hall (r.step w m) List.mem_cons_self) p
    have hrest := ih (r.move w m).registry (r.move w m).world
      fun x hx ↦ hall x (List.mem_cons_of_mem _ hx)
    show ((r.move w m).registry.run (r.move w m).world ms).registry.IsOpen p ↔
      LastOpened p (r.step w m :: ((r.move w m).registry.run (r.move w m).world ms).steps) ∨
        r.IsOpen p ∧
          ∀ x ∈ r.step w m :: ((r.move w m).registry.run (r.move w m).world ms).steps, ¬ x.Closes p
    rw [hrest, hfirst, lastOpened_cons, List.forall_mem_cons, or_and_right, and_assoc, or_assoc]

/-- Over devices that keep to their patience, closing all ports comes to an end. -/
theorem Step.Lawful.closesAll {opener : Opener World} {defaults : LineSettings} {x : Step World}
    (hx : x.Lawful opener defaults) (hpatient : opener.Supplies Device.Patient) : x.ClosesAll := by
  obtain ⟨m, r, w, done⟩ := x
  cases m with
  | closeAll =>
    intro reason hhalt
    have hok : done.outcome = .ok () := CloseAllLaw.succeeds hx hpatient
    rw [hok] at hhalt
    cases hhalt
  | _ => trivial

/-- Every step of a run is lawful, by induction on the moves: the registry serves the same opener
and the same defaults throughout. -/
theorem run_lawful {opener : Opener World} {defaults : LineSettings} {r : Registry World}
    (hr : r.Serves opener defaults) (w : World) (ms : List Move) :
    ∀ x ∈ (r.run w ms).steps, x.Lawful opener defaults := by
  induction ms generalizing r w with
  | nil => exact fun x hx ↦ absurd hx List.not_mem_nil
  | cons m ms ih =>
    intro x hx
    rcases List.mem_cons.mp hx with rfl | hlater
    · exact step_lawful hr w m
    · exact ih (hr.move w m) (r.move w m).world x hlater

/-- From a registry in which no port is open, with any opener and any defaults, through any history:
every move obeys the law of its kind, the open ports are listed in order, and a port is open exactly
if it has been opened and not been closed since. The last needs that closing all ports has come to
an end wherever it was tried, as it does over devices that keep to their patience. -/
theorem life_cycle (opener : Opener World) (defaults : LineSettings) (w : World)
    (ms : List Move) :
    let run := ({ opener, defaults } : Registry World).run w ms
    (∀ x ∈ run.steps, x.Lawful opener defaults) ∧
      ((∀ p, p ∈ run.registry.openPorts ↔ run.registry.IsOpen p) ∧
        run.registry.openPorts.Pairwise fun p q ↦ p.code < q.code) ∧
      ((∀ x ∈ run.steps, x.ClosesAll) →
        ∀ p, run.registry.IsOpen p ↔ LastOpened p run.steps) := by
  have hnone : ∀ p, ¬ ({ opener, defaults } : Registry World).IsOpen p :=
    fun p ↦ not_isOpen_iff.mpr rfl
  have hserves : ({ opener, defaults } : Registry World).Serves opener defaults :=
    ⟨rfl, rfl, fun hpatient ↦ ⟨by simp, fun _ _ _ _ _ h ↦ hpatient h⟩⟩
  refine ⟨run_lawful hserves w ms, ⟨mem_openPorts _, openPorts_pairwise _⟩, fun hall p ↦ ?_⟩
  rw [isOpen_run _ w ms p hall]
  simp [hnone p]

/-- A port of a bench is opened twice, closed, and opened again after all ports were closed. Another
one is opened once, and looked up when it is closed. -/
theorem life_cycle_onboard_mxp :
    let ms : List Move :=
      [.openPort .onboard, .openPort .onboard, .openPort .mxp, .perform .mxp (.write [7]),
        .close .onboard, .close .onboard, .closeAll, .lookup .mxp, .openPort .onboard]
    let run := ({ opener := Bench.opener } : Registry Bench).run {} ms
    run.registry.openPorts = [.onboard] ∧ (∀ x ∈ run.steps, x.ClosesAll) ∧
      (∀ x ∈ run.steps, x.Lawful Bench.opener {}) ∧
      ((∀ p, p ∈ run.registry.openPorts ↔ run.registry.IsOpen p) ∧
        run.registry.openPorts.Pairwise fun p q ↦ p.code < q.code) ∧
      ∀ p, run.registry.IsOpen p ↔ LastOpened p run.steps := by
  intro ms run
  obtain ⟨hlawful, hports, hopen⟩ := life_cycle Bench.opener {} {} ms
  have hall : ∀ x ∈ run.steps, x.ClosesAll := fun x hx ↦
    (hlawful x hx).closesAll (Bench.opener_supplies Bench.device_patient)
  exact ⟨by decide, hall, hlawful, hports, hopen hall⟩

end Registry

end SerialLine
