import SerialLine.Proofs.Loopback.Wire
import SerialLine.Proofs.Session.Input
import SerialLine.Proofs.Session.Output
import SerialLine.Proofs.Session.Setters
import SerialLine.Registry
/-!
# Two sessions on one line

Two ports are wired with the ends of a new line, and their sessions, the faults of the ends and the
budgets of the ends change in any order (`Pipe.Move`). A byte that one session accepts waits in its
pending bytes, then on the line, then in the staged bytes of the other session, and is handed out at
last. `Pipe.Flows` states that the four places together hold what was accepted, in order, and
`Pipe.Wired` that this is so in both directions. `wired_connect` is the state in which the ports
have just been wired, `Wired.move` the step, and `pipe_conserved` the law of every history.
-/

set_option autoImplicit false

namespace SerialLine

namespace Session

/-- The bytes that a read has returned. -/
def Step.returned : Step Bench → Bytes
  | ⟨.read _, _, .ok frame, _, _⟩ => frame
  | _ => []

/-- The part of the data that a write has said to have accepted. -/
def Step.acknowledged : Step Bench → Bytes
  | ⟨.write data, _, .ok n, _, _⟩ => data.take n
  | _ => []

/-- What leaves the staged bytes has been returned, unless the input was cleared. -/
theorem handedOut_eq_returned (s : Session Bench) (b : Bench) {op : Operation}
    (hop : op ≠ .clear) : (s.step b op).handedOut = (s.step b op).returned := by
  unfold step
  cases op with
  | read limit => cases (s.perform b (.read limit)).outcome <;> rfl
  | clear => exact absurd rfl hop
  | _ => rfl

/-- At the end of a loopback line a write that fails has accepted nothing in either mode, and every
write returns. -/
theorem accepted_eq_acknowledged {s : Session Bench} {b : Bench} {i : EndId}
    (hdevice : s.device = Bench.device i) (hsize : 0 < s.settings.writeBufferSize) {op : Operation}
    (hcarries : Bench.Carries i b (s.exchanges b op) (s.perform b op).world) :
    (s.step b op).accepted = (s.step b op).acknowledged := by
  unfold step
  cases op with
  | write data =>
    cases houtcome : (s.perform b (.write data)).outcome with
    | ok n => rfl
    | halt reason =>
      exact absurd houtcome
        (write_ne_halt (hdevice ▸ Bench.device_patient i) hsize data b reason)
    | error e =>
      simp only [Step.accepted, Step.acknowledged]
      cases s.settings.writeMode with
      | flushWhenFull => rfl
      | flushOnAccess =>
        simp only
        split
        · next hall =>
          cases hfaulted : (b.ends i).faulted with
          | true => rw [← hall.1, hcarries.taken_eq_nil hfaulted]
          | false =>
            have hsent := hcarries.flushFailed_eq hfaulted
            rw [hall.2] at hsent
            exact absurd hsent Bool.noConfusion
        · rfl
  | _ => rfl

end Session

namespace Pipe

/-! ### Histories of two ports -/

/-- The ports, the bench that they are on, and the steps that their sessions have made. -/
structure State where
  registry : Registry Bench
  bench : Bench
  history : List (Port × Session.Step Bench) := []

/-- What can happen to a port of a line. -/
inductive Move
  | openPort (port : Port)
  | perform (port : Port) (op : Operation)
  | setFaulted (port : Port) (faulted : Bool)
  | setLimit (port : Port) (limit : Option Nat)

/-- The port at which a move is made. -/
def Move.port : Move → Port
  | .openPort r | .perform r _ | .setFaulted r _ | .setLimit r _ => r

/-- Neither input nor output is dropped. -/
def Move.DropsNothing : Move → Prop
  | .perform _ op => op ≠ .clear ∧ op ≠ .discardOutput
  | _ => True

namespace State

/-- Makes a move. The step of a session that is open is added to the history. -/
def move (σ : State) : Move → State
  | .openPort r =>
    let done := σ.registry.openPort r σ.bench
    { σ with registry := done.registry, bench := done.world }
  | .perform r op =>
    let done := σ.registry.perform r op σ.bench
    { registry := done.registry
      bench := done.world
      history := σ.history ++
        ((σ.registry.sessions r).map fun s ↦ (r, s.step σ.bench op)).toList }
  | .setFaulted r faulted => { σ with bench := σ.bench.setFaulted (σ.bench.socket r) faulted }
  | .setLimit r limit => { σ with bench := σ.bench.setLimit (σ.bench.socket r) limit }

/-- Makes one move after another. -/
def play (σ : State) (moves : List Move) : State := moves.foldl move σ

/-- The steps of the session of one port. -/
def steps (σ : State) (r : Port) : List (Session.Step Bench) :=
  (σ.history.filter (·.1 = r)).map (·.2)

/-- The bytes that the reads of a port have returned. -/
def returned (σ : State) (r : Port) : Bytes := (σ.steps r).flatMap Session.Step.returned

/-- The bytes that the writes of a port have said to have accepted. -/
def acknowledged (σ : State) (r : Port) : Bytes := (σ.steps r).flatMap Session.Step.acknowledged

/-- The bytes that the session of a port has staged, if it is open. -/
def staged (σ : State) (r : Port) : Bytes := ((σ.registry.sessions r).map (·.staged)).getD []

/-- The bytes that are pending in the session of a port, if it is open. -/
def pending (σ : State) (r : Port) : Bytes := ((σ.registry.sessions r).map (·.pending)).getD []

/-- The bytes on the line to a port. -/
def line (σ : State) (r : Port) : Bytes := (σ.bench.ends (σ.bench.socket r)).input

theorem staged_eq {σ : State} {r : Port} {s : Session Bench} (h : σ.registry.sessions r = some s) :
    σ.staged r = s.staged := by
  rw [staged, h, Option.map_some, Option.getD_some]

theorem pending_eq {σ : State} {r : Port} {s : Session Bench} (h : σ.registry.sessions r = some s) :
    σ.pending r = s.pending := by
  rw [pending, h, Option.map_some, Option.getD_some]

end State

/-- One direction of the line: what has been returned at the one port, followed by what is staged
there, what is on the line and what is pending at the other port, is what was accepted there. -/
def Flows (σ : State) (p q : Port) : Prop :=
  σ.returned q ++ σ.staged q ++ σ.line q ++ σ.pending p = σ.acknowledged p

/-- A port is plugged into an end at which nothing is to arrive by itself. Its session, if it is
open, works on that end, holds nothing back when it writes through, and has a write buffer. -/
structure Plugged (σ : State) (p : Port) (i : EndId) : Prop where
  socket_eq : σ.bench.socket p = i
  arriving_eq : (σ.bench.ends i).arriving = []
  device_eq : ∀ s, σ.registry.sessions p = some s → s.device = Bench.device i
  nothingHeldBack : ∀ s, σ.registry.sessions p = some s → s.NothingHeldBack
  writeBufferSize_pos : ∀ s, σ.registry.sessions p = some s → 0 < s.settings.writeBufferSize

/-- Two ports are wired with the two ends of a line, and the bytes flow both ways. -/
structure Wired (σ : State) (p q : Port) (i j : EndId) : Prop where
  opener_eq : σ.registry.opener = Bench.opener
  ports_ne : p ≠ q
  ends_ne : i ≠ j
  far_eq : i.far = j
  near_eq : j.far = i
  near : Plugged σ p i
  far : Plugged σ q j
  forth : Flows σ p q
  back : Flows σ q p

/-- The line is no loop. -/
theorem Wired.far_ne {σ : State} {p q : Port} {i j : EndId} (h : Wired σ p q i j) :
    i.far ≠ i := by
  rw [h.far_eq]
  exact h.ends_ne.symm

theorem Wired.symm {σ : State} {p q : Port} {i j : EndId} (h : Wired σ p q i j) :
    Wired σ q p j i :=
  ⟨h.opener_eq, h.ports_ne.symm, h.ends_ne.symm, h.near_eq, h.far_eq, h.far, h.near, h.back,
    h.forth⟩

/-! ### One move -/

section Moves

variable {σ : State} {p q : Port} {i j : EndId}

theorem Plugged.line_eq (h : Plugged σ p i) : σ.line p = (σ.bench.ends i).input := by
  rw [State.line, h.socket_eq]

/-- A change at one port keeps both directions, whatever it is, if input comes off the line to what
is staged, output comes from what is pending and accepted to the line, and the other port is left
alone. -/
theorem Wired.act (h : Wired σ p q i j) {σ' : State} {input output : Bytes} (accepted : Bytes)
    (hopener : σ'.registry.opener = Bench.opener)
    (hsessions : σ'.registry.sessions q = σ.registry.sessions q)
    (hsteps : σ'.steps q = σ.steps q)
    (hshifts : Bench.Shifts i σ.bench input output σ'.bench)
    (hsound : ∀ s, σ'.registry.sessions p = some s →
      s.device = Bench.device i ∧ s.NothingHeldBack ∧ 0 < s.settings.writeBufferSize)
    (hstaged : σ'.returned p ++ σ'.staged p = σ.returned p ++ σ.staged p ++ input)
    (hpending : output ++ σ'.pending p = σ.pending p ++ accepted)
    (haccepted : σ'.acknowledged p = σ.acknowledged p ++ accepted) : Wired σ' p q i j := by
  have hnear : Plugged σ' p i := by
    refine ⟨?_, ?_, fun s hs ↦ (hsound s hs).1, fun s hs ↦ (hsound s hs).2.1,
      fun s hs ↦ (hsound s hs).2.2⟩
    · rw [hshifts.socket_eq, h.near.socket_eq]
    · rw [hshifts.arriving_eq, h.near.arriving_eq]
  have hfar : Plugged σ' q j := by
    refine ⟨?_, ?_, ?_, ?_, ?_⟩
    · rw [hshifts.socket_eq, h.far.socket_eq]
    · rw [← h.far_eq, hshifts.far_arriving_eq, h.far_eq, h.far.arriving_eq]
    · rw [hsessions]
      exact h.far.device_eq
    · rw [hsessions]
      exact h.far.nothingHeldBack
    · rw [hsessions]
      exact h.far.writeBufferSize_pos
  have hreturned : σ'.returned q = σ.returned q := congrArg (List.flatMap _) hsteps
  have hacknowledged : σ'.acknowledged q = σ.acknowledged q := congrArg (List.flatMap _) hsteps
  have hstaged' : σ'.staged q = σ.staged q := by rw [State.staged, hsessions, State.staged]
  have hpending' : σ'.pending q = σ.pending q := by rw [State.pending, hsessions, State.pending]
  refine ⟨hopener, h.ports_ne, h.ends_ne, h.far_eq, h.near_eq, hnear, hfar, ?_, ?_⟩
  · have hline : σ'.line q = σ.line q ++ output := by
      rw [hfar.line_eq, h.far.line_eq, ← h.far_eq, hshifts.far_eq]
    have hforth := h.forth
    unfold Flows at hforth ⊢
    rw [hreturned, hstaged', hline, haccepted, ← hforth]
    simp only [List.append_assoc, hpending]
  · have hline : input ++ σ'.line p = σ.line p := by
      rw [hnear.line_eq, h.near.line_eq, hshifts.near_eq]
    have hback := h.back
    unfold Flows at hback ⊢
    rw [hstaged, hpending', hacknowledged, ← hback, ← hline]
    simp only [List.append_assoc]

/-- The step of a session is the last one in the history of its port. -/
theorem steps_append_self (σ : State) (r : Port) (x : Session.Step Bench)
    (registry : Registry Bench) (bench : Bench) :
    (⟨registry, bench, σ.history ++ [(r, x)]⟩ : State).steps r = σ.steps r ++ [x] := by
  simp [State.steps, List.filter_append]

theorem steps_append_of_ne (σ : State) {r r' : Port} (hr : r ≠ r') (x : Session.Step Bench)
    (registry : Registry Bench) (bench : Bench) :
    (⟨registry, bench, σ.history ++ [(r, x)]⟩ : State).steps r' = σ.steps r' := by
  simp [State.steps, List.filter_append, hr]

/-- An operation on a port that is not open changes nothing. -/
theorem move_perform_of_closed {op : Operation} (h : σ.registry.sessions p = none) :
    σ.move (.perform p op) = σ := by
  simp only [State.move, Registry.perform, Registry.onSession, h, Option.map_none,
    Option.toList_none, List.append_nil]

/-- An operation on an open port is one of its session. -/
theorem move_perform_of_open {op : Operation} {s : Session Bench}
    (h : σ.registry.sessions p = some s) : σ.move (.perform p op) =
      ⟨σ.registry.put p (some (s.perform σ.bench op).session), (s.perform σ.bench op).world,
        σ.history ++ [(p, s.step σ.bench op)]⟩ := by
  simp only [State.move, Registry.perform, Registry.onSession, h, Option.map_some,
    Option.toList_some]

/-- An operation of the session of one port. -/
theorem Wired.perform (h : Wired σ p q i j) {op : Operation} (hclear : op ≠ .clear)
    (hdiscard : op ≠ .discardOutput) : Wired (σ.move (.perform p op)) p q i j := by
  cases hsession : σ.registry.sessions p with
  | none =>
    rw [move_perform_of_closed hsession]
    exact h
  | some s =>
    have hdevice := h.near.device_eq s hsession
    have hheld := h.near.nothingHeldBack s hsession
    have hsize := h.near.writeBufferSize_pos s hsession
    have hcarries := σ.bench.carries_operation h.far_ne h.near.arriving_eq hdevice hclear
    have hinput := s.step_keepsInput σ.bench op
    have houtput := Session.step_keepsOutput
      (hdevice ▸ Bench.device_takesWhatIsOffered i) hheld σ.bench hdiscard
    have hself : (σ.registry.put p (some (s.perform σ.bench op).session)).sessions p =
        some (s.perform σ.bench op).session := if_pos rfl
    have hother : (σ.registry.put p (some (s.perform σ.bench op).session)).sessions q =
        σ.registry.sessions q := if_neg h.ports_ne.symm
    rw [move_perform_of_open hsession]
    refine Wired.act h (s.step σ.bench op).acknowledged h.opener_eq hother
      (steps_append_of_ne σ h.ports_ne _ _ _) hcarries.toShifts ?_ ?_ ?_ ?_
    · intro t ht
      cases hself.symm.trans ht
      exact ⟨(s.perform_device σ.bench op).trans hdevice, houtput.nothingHeldBack,
        Session.writeBufferSize_pos hsize σ.bench op⟩
    · rw [State.returned, steps_append_self, List.flatMap_append, List.flatMap_singleton,
        State.staged_eq hself, State.staged_eq hsession, List.append_assoc,
        ← s.handedOut_eq_returned σ.bench hclear, State.returned, List.append_assoc]
      exact congrArg (_ ++ ·) hinput.staged_eq
    · rw [State.pending_eq hself, State.pending_eq hsession,
        ← Session.accepted_eq_acknowledged hdevice hsize hcarries]
      exact houtput.pending_eq
    · rw [State.acknowledged, steps_append_self, List.flatMap_append, List.flatMap_singleton,
        State.acknowledged]

/-- A change that moves no bytes and is no step of a session. -/
theorem Wired.quiet (h : Wired σ p q i j) {registry : Registry Bench} {bench : Bench}
    (hopener : registry.opener = Bench.opener)
    (hsessions : registry.sessions q = σ.registry.sessions q)
    (hshifts : Bench.Shifts i σ.bench [] [] bench)
    (hsound : ∀ s, registry.sessions p = some s →
      s.device = Bench.device i ∧ s.NothingHeldBack ∧ 0 < s.settings.writeBufferSize)
    (hstaged : (⟨registry, bench, σ.history⟩ : State).staged p = σ.staged p)
    (hpending : (⟨registry, bench, σ.history⟩ : State).pending p = σ.pending p) :
    Wired ⟨registry, bench, σ.history⟩ p q i j := by
  have hpending' : [] ++ (⟨registry, bench, σ.history⟩ : State).pending p = σ.pending p ++ [] := by
    rw [hpending, List.nil_append, List.append_nil]
  refine h.act [] hopener hsessions rfl hshifts hsound ?_ hpending' (List.append_nil _).symm
  rw [hstaged, List.append_nil]
  rfl

/-- Opening one port, whether it succeeds or not. -/
theorem Wired.openPort (h : Wired σ p q i j) : Wired (σ.move (.openPort p)) p q i j := by
  have hopened := σ.bench.shifts_openPort (p := p)
    (h.near.socket_eq ▸ h.far_ne) (h.near.socket_eq ▸ h.near.arriving_eq) σ.registry.defaults
  rw [h.near.socket_eq] at hopened
  obtain ⟨hshifts, hdevice⟩ := hopened
  simp only [State.move, Registry.openPort]
  cases hsession : σ.registry.sessions p with
  | some s => exact h
  | none =>
    cases hvalid : σ.registry.defaults.validate with
    | error reason => exact h
    | ok _ =>
      have hsize := ((LineSettings.validate_eq_ok_iff _).mp hvalid).2.2
      simp only [h.opener_eq]
      rcases hanswer : Bench.opener.openPort p σ.registry.defaults σ.bench with ⟨e | opened, b'⟩ <;>
        rw [hanswer] at hshifts hdevice
      · refine h.quiet h.opener_eq rfl hshifts (fun s hs ↦ ?_) rfl rfl
        rw [hsession] at hs
        cases hs
      · have hself : ∀ s, (σ.registry.put p (some s)).sessions p = some s := fun _ ↦ if_pos rfl
        have hother : ∀ s, (σ.registry.put p (some s)).sessions q = σ.registry.sessions q :=
          fun _ ↦ if_neg h.ports_ne.symm
        refine h.quiet h.opener_eq (hother _) hshifts (fun s hs ↦ ?_) ?_ ?_
        · cases (hself _).symm.trans hs
          exact ⟨hdevice opened rfl, fun _ ↦ rfl, hsize⟩
        · simp only [State.staged, hself, hsession, Option.map_some, Option.map_none,
            Option.getD_some, Option.getD_none]
        · simp only [State.pending, hself, hsession, Option.map_some, Option.map_none,
            Option.getD_some, Option.getD_none]

/-- Changing the fault or the budget of an end. -/
theorem Wired.modify (h : Wired σ p q i j) {change : End → End}
    (hinput : ∀ e, (change e).input = e.input) (harriving : ∀ e, (change e).arriving = e.arriving) :
    Wired { σ with bench := σ.bench.modify i change } p q i j := by
  refine h.quiet h.opener_eq rfl (σ.bench.shifts_modify h.far_ne hinput harriving) (fun s hs ↦ ?_)
    rfl rfl
  exact ⟨h.near.device_eq s hs, h.near.nothingHeldBack s hs, h.near.writeBufferSize_pos s hs⟩

/-- A move at the first of the two ports. -/
theorem Wired.move_near (h : Wired σ p q i j) {move : Move} (hport : move.port = p)
    (hmove : move.DropsNothing) : Wired (σ.move move) p q i j := by
  cases move with
  | openPort r =>
    change r = p at hport
    subst hport
    exact h.openPort
  | perform r op =>
    change r = p at hport
    subst hport
    exact h.perform hmove.1 hmove.2
  | setFaulted r faulted =>
    change r = p at hport
    subst hport
    show Wired { σ with bench := σ.bench.modify (σ.bench.socket r) _ } r q i j
    rw [h.near.socket_eq]
    exact h.modify (fun _ ↦ rfl) fun _ ↦ rfl
  | setLimit r limit =>
    change r = p at hport
    subst hport
    show Wired { σ with bench := σ.bench.modify (σ.bench.socket r) _ } r q i j
    rw [h.near.socket_eq]
    exact h.modify (fun _ ↦ rfl) fun _ ↦ rfl

/-- A move at either port, since the two directions are alike. -/
theorem Wired.move (h : Wired σ p q i j) {move : Move} (hport : move.port = p ∨ move.port = q)
    (hmove : move.DropsNothing) : Wired (σ.move move) p q i j := by
  rcases hport with hnear | hfar
  · exact h.move_near hnear hmove
  · exact (h.symm.move_near hfar hmove).symm

/-! ### Whole histories -/

theorem Wired.play (h : Wired σ p q i j) {moves : List Move}
    (hmoves : ∀ move ∈ moves, (move.port = p ∨ move.port = q) ∧ move.DropsNothing) :
    Wired (σ.play moves) p q i j := by
  induction moves generalizing σ with
  | nil => exact h
  | cons move moves ih =>
    obtain ⟨hport, hmove⟩ := hmoves move List.mem_cons_self
    exact ih (h.move hport hmove) fun move' hmem ↦ hmoves move' (List.mem_cons_of_mem _ hmem)

end Moves

theorem Plugged.of_closed {σ : State} {p : Port} {i : EndId} (hsocket : σ.bench.socket p = i)
    (harriving : (σ.bench.ends i).arriving = []) (hclosed : σ.registry.sessions p = none) :
    Plugged σ p i := by
  have hnone : ∀ s, σ.registry.sessions p ≠ some s := by
    intro s hs
    rw [hclosed] at hs
    cases hs
  exact ⟨hsocket, harriving, fun s hs ↦ absurd hs (hnone s), fun s hs ↦ absurd hs (hnone s),
    fun s hs ↦ absurd hs (hnone s)⟩

/-- Two ports that have just been wired, before either is opened. -/
theorem wired_connect (r : Registry Bench) (b : Bench) {p q : Port}
    (hopener : r.opener = Bench.opener) (hports : p ≠ q) (hp : r.sessions p = none)
    (hq : r.sessions q = none) :
    Wired ⟨r, b.connect p q, []⟩ p q (.left b.pairs) (.right b.pairs) := by
  have hleft : (b.connect p q).ends (.left b.pairs) = {} := by
    show ((b.put (.left b.pairs) {}).put (.right b.pairs) {}).ends (.left b.pairs) = {}
    rw [Bench.put_ends_of_ne _ _ (by simp), Bench.put_ends_self]
  have hright : (b.connect p q).ends (.right b.pairs) = {} := Bench.put_ends_self _ _ _
  have hsocket : (b.connect p q).socket p = .left b.pairs := by
    show (if p = q then _ else if p = p then _ else _) = _
    rw [if_neg hports, if_pos rfl]
  have hsocket' : (b.connect p q).socket q = .right b.pairs := if_pos rfl
  have hnear : Plugged ⟨r, b.connect p q, []⟩ p (.left b.pairs) :=
    .of_closed hsocket (by rw [hleft]) hp
  have hfar : Plugged ⟨r, b.connect p q, []⟩ q (.right b.pairs) :=
    .of_closed hsocket' (by rw [hright]) hq
  refine ⟨hopener, hports, by simp, rfl, rfl, hnear, hfar, ?_, ?_⟩
  · unfold Flows
    rw [hfar.line_eq, hright, State.staged, State.pending, hp, hq]
    rfl
  · unfold Flows
    rw [hnear.line_eq, hleft, State.staged, State.pending, hp, hq]
    rfl

/-- Two ports are wired and then opened, used, made to fail and limited in any order, as long as
nothing is dropped. At every moment the bytes that the reads of the one port have returned, followed
by what is staged there, what is on the line and what is pending at the other port, are the bytes
that the writes of the other port have said to have accepted, in order. This holds in both
directions. -/
theorem pipe_conserved (r : Registry Bench) (b : Bench) (p q : Port) (moves : List Move)
    (hopener : r.opener = Bench.opener) (hports : p ≠ q)
    (hclosed : r.sessions p = none ∧ r.sessions q = none)
    (hmoves : ∀ move ∈ moves, (move.port = p ∨ move.port = q) ∧ move.DropsNothing) :
    let σ := (⟨r, b.connect p q, []⟩ : State).play moves
    σ.returned q ++ σ.staged q ++ σ.line q ++ σ.pending p = σ.acknowledged p ∧
      σ.returned p ++ σ.staged p ++ σ.line p ++ σ.pending q = σ.acknowledged q := by
  have hwired := (wired_connect r b hopener hports hclosed.1 hclosed.2).play hmoves
  exact ⟨hwired.forth, hwired.back⟩

/-- Five bytes are accepted at the one port, of which the budget lets three through, and two of
these are read at the other port. The sixth byte meets with a fault and is not accepted. -/
theorem pipe_conserved_onboard_mxp :
    let σ := (⟨{ opener := Bench.opener }, Bench.connect {} .onboard .mxp, []⟩ : State).play
      [.openPort .onboard, .openPort .mxp, .perform .onboard (.setWriteMode .flushWhenFull),
        .perform .onboard (.setWriteBufferSize 2), .setLimit .onboard (some 3),
        .perform .onboard (.write [1, 2, 3, 4, 5]), .perform .mxp (.read 2),
        .setFaulted .onboard true, .perform .onboard (.write [6]), .perform .mxp (.write [7])]
    (σ.returned .mxp = [1, 2] ∧ σ.staged .mxp = [3] ∧ σ.pending .onboard = [4, 5] ∧
      σ.line .onboard = [7]) ∧
    σ.returned .mxp ++ σ.staged .mxp ++ σ.line .mxp ++ σ.pending .onboard =
      σ.acknowledged .onboard ∧
    σ.returned .onboard ++ σ.staged .onboard ++ σ.line .onboard ++ σ.pending .mxp =
      σ.acknowledged .mxp :=
  ⟨by decide, pipe_conserved { opener := Bench.opener } {} .onboard .mxp _ rfl (by decide)
    ⟨rfl, rfl⟩ (by simp [Move.port, Move.DropsNothing])⟩

end Pipe

end SerialLine
