import SerialLine.Proofs.Session.Agreement
/-!
# Histories of sessions

The exchanges that an operation brings about are those that the recorded form of its device has
written down when the operation is over (`Session.exchanges`). Recording changes nothing
(`perform_recorded`), the exchanges lead from the world before the operation to the world after it
(`follows_exchanges`), and every one of them is a call that the operation may make
(`makes_of_mem_exchanges`).

`Session.run` performs a list of operations and keeps a `Step` for each: how it ended, its
exchanges, and the session before and after it. Laws about histories are stated on these steps.
-/

set_option autoImplicit false

namespace SerialLine

namespace Session

variable {World : Type}

/-! ### The exchanges of an operation -/

/-- The session over the recorded form of its device. -/
def recorded (s : Session World) : Session (World × List Exchange) :=
  s.withDevice s.device.recorded

/-- The exchanges between session and device that an operation brings about, in order. -/
def exchanges (s : Session World) (w : World) (op : Operation) : List Exchange :=
  (s.recorded.perform (w, []) op).world.2

theorem recorded_agrees (s : Session World) (w : World) (op : Operation) :
    Result.Agrees s.device s.device.recorded
      (fun w' v ↦ v.1 = w' ∧ s.device.Follows w v.2 w' ∧ ∀ x ∈ v.2, op.Makes x.call)
      (s.perform w op) (s.recorded.perform (w, []) op) :=
  perform_agrees (s.device.recorded_agrees op.Makes w)
    ⟨rfl, .nil w, fun _ hx ↦ absurd hx List.not_mem_nil⟩

/-- An operation leaves the session with the device it had. -/
theorem perform_device (s : Session World) (w : World) (op : Operation) :
    (s.perform w op).session.device = s.device := by
  obtain ⟨outcome, t, w', v, hw, -, hdevice, -⟩ := s.recorded_agrees w op
  rw [hw]
  exact hdevice

/-- Recording changes nothing: the operation ends as it does without the record. -/
theorem perform_recorded (s : Session World) (w : World) (op : Operation) :
    s.recorded.perform (w, []) op = ⟨(s.perform w op).outcome, (s.perform w op).session.recorded,
      (s.perform w op).world, s.exchanges w op⟩ := by
  obtain ⟨outcome, t, w', ⟨v, log⟩, hw, hv, hdevice, hworld, -⟩ := s.recorded_agrees w op
  rw [exchanges, hw, hv, recorded, hdevice, ← hworld]

/-- The exchanges of an operation lead from the world before it to the world after it. -/
theorem follows_exchanges (s : Session World) (w : World) (op : Operation) :
    s.device.Follows w (s.exchanges w op) (s.perform w op).world := by
  obtain ⟨outcome, t, w', v, hw, hv, -, -, hfollows, -⟩ := s.recorded_agrees w op
  rw [exchanges, hw, hv]
  exact hfollows

/-- Closing asks the device for what a flush asks for, and then perhaps to drop the rest. -/
theorem follows_close (s : Session World) (w : World) :
    ∃ log, s.device.Follows w log (s.close w).world := by
  have hflush : s.device.Follows w _ (s.flush w).world := s.follows_exchanges w .flush
  have hdevice : (s.flush w).session.device = s.device := s.perform_device w .flush
  unfold close
  cases s.pending with
  | nil => exact ⟨[], .nil w⟩
  | cons b bs =>
    simp only
    rcases hdone : s.flush w with ⟨_ | _ | _, t, w'⟩ <;> rw [hdone] at hflush hdevice
    · exact ⟨_, hflush⟩
    · have hdiscard := t.follows_exchanges w' .discardOutput
      rw [show t.device = s.device from hdevice] at hdiscard
      exact ⟨_, hflush.trans hdiscard⟩
    · exact ⟨_, hflush⟩

/-- The calls of an operation are those that it may make. -/
theorem makes_of_mem_exchanges {s : Session World} {w : World} {op : Operation} {x : Exchange}
    (hx : x ∈ s.exchanges w op) : op.Makes x.call := by
  obtain ⟨outcome, t, w', v, -, hv, -, -, -, hmakes⟩ := s.recorded_agrees w op
  rw [exchanges, hv] at hx
  exact hmakes x hx

/-- An operation that makes no writes hands nothing to the device. -/
theorem taken_exchanges_eq_nil (s : Session World) (w : World) {op : Operation}
    (h : ∀ offered, ¬ op.Makes (.write offered)) : taken (s.exchanges w op) = [] :=
  taken_eq_nil fun _ hx offered hcall ↦ h offered (hcall ▸ makes_of_mem_exchanges hx)

/-- An operation that makes no reads gets nothing from the device. -/
theorem delivered_exchanges_eq_nil (s : Session World) (w : World) {op : Operation}
    (h : ∀ room, ¬ op.Makes (.read room)) : delivered (s.exchanges w op) = [] :=
  delivered_eq_nil fun _ hx room hcall ↦ h room (hcall ▸ makes_of_mem_exchanges hx)

/-! ### Runs -/

/-- An operation that a session has performed. -/
structure Step (World : Type) where
  op : Operation
  before : Session World
  outcome : Outcome op.Answer
  exchanges : List Exchange
  after : Session World

/-- The step that an operation is. -/
def step (s : Session World) (w : World) (op : Operation) : Step World :=
  ⟨op, s, (s.perform w op).outcome, s.exchanges w op, (s.perform w op).session⟩

/-- What a list of operations leaves behind. -/
structure Run (World : Type) where
  steps : List (Step World)
  session : Session World
  world : World

/-- Performs operations one after another. An operation that fails or halts does not keep the next
one from being tried. -/
def run (s : Session World) (w : World) : List Operation → Run World
  | [] => ⟨[], s, w⟩
  | op :: ops =>
    let rest := (s.perform w op).session.run (s.perform w op).world ops
    ⟨s.step w op :: rest.steps, rest.session, rest.world⟩

/-- All exchanges of a run, in order. -/
def Run.exchanges (run : Run World) : List Exchange := run.steps.flatMap Step.exchanges

theorem run_cons_steps (s : Session World) (w : World) (op : Operation) (ops : List Operation) :
    (s.run w (op :: ops)).steps =
      s.step w op :: ((s.perform w op).session.run (s.perform w op).world ops).steps := rfl

theorem run_cons_session (s : Session World) (w : World) (op : Operation)
    (ops : List Operation) : (s.run w (op :: ops)).session =
      ((s.perform w op).session.run (s.perform w op).world ops).session := rfl

theorem run_cons_exchanges (s : Session World) (w : World) (op : Operation)
    (ops : List Operation) : (s.run w (op :: ops)).exchanges =
      s.exchanges w op ++ ((s.perform w op).session.run (s.perform w op).world ops).exchanges :=
  rfl

/-- Every step of a run is an operation of the list, performed in some session and world. -/
theorem exists_step_of_mem_run {s : Session World} {w : World} {ops : List Operation}
    {x : Step World} (hx : x ∈ (s.run w ops).steps) :
    ∃ t v op, op ∈ ops ∧ x = step t v op := by
  induction ops generalizing s w with
  | nil => exact absurd hx List.not_mem_nil
  | cons op ops ih =>
    rcases List.mem_cons.mp hx with rfl | hrest
    · exact ⟨s, w, op, List.mem_cons_self, rfl⟩
    · obtain ⟨t, v, op', hop, hstep⟩ := ih hrest
      exact ⟨t, v, op', List.mem_cons_of_mem _ hop, hstep⟩

/-- The exchanges of a run lead from the world in which it starts to the one in which it ends. -/
theorem follows_run (s : Session World) (w : World) (ops : List Operation) :
    s.device.Follows w (s.run w ops).exchanges (s.run w ops).world := by
  induction ops generalizing s w with
  | nil => exact .nil w
  | cons op ops ih =>
    have hrest := ih (s.perform w op).session (s.perform w op).world
    rw [s.perform_device w op] at hrest
    exact (s.follows_exchanges w op).trans hrest

end Session

end SerialLine
