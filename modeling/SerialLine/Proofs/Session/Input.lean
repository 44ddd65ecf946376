import SerialLine.Proofs.Session.Frame
import SerialLine.Proofs.Session.History
/-!
# Input is neither lost, duplicated nor reordered

The bytes that a device delivers are staged in the session at the end of what is staged already, and
leave it at the front: as the frame that a read hands out, or all at once when the input is
cleared. `Step.KeepsInput` is this law for one operation, and `step_keepsInput` shows it of every
operation in every session, over every device. It is then carried through histories by induction
(`run_keepsInput`). A session that starts with nothing staged has handed out or dropped, or still
has staged, exactly what its device has delivered (`input_conserved`).
-/

set_option autoImplicit false

namespace SerialLine

namespace Session

variable {World : Type}

/-- What a step takes out of the staged bytes: the frame of a read that succeeds, and everything
when the input is cleared. -/
def Step.handedOut : Step World → Bytes
  | ⟨.read _, _, .ok frame, _, _⟩ => frame
  | ⟨.clear, before, _, _, _⟩ => before.staged
  | _ => []

/-- The law of input for one step. -/
structure Step.KeepsInput (x : Step World) : Prop where
  /-- Bytes come to the end of what is staged and leave from the front. -/
  staged_eq : x.handedOut ++ x.after.staged = x.before.staged ++ delivered x.exchanges
  received_eq : x.after.received = x.before.received + (delivered x.exchanges).length
  /-- A read hands out no more than it was asked for. -/
  frame_le : ∀ {limit before frame exchanges after},
    x = ⟨.read limit, before, .ok frame, exchanges, after⟩ → frame.length ≤ limit

/-! ### One operation -/

/-- Whatever a read comes to, the bytes that the device has delivered in the meantime are at the
end of what is staged, but for a frame that has left from the front. -/
theorem read_keepsInput (s : Session World) (w : World) (limit : Nat) :
    (s.step w (.read limit)).KeepsInput := by
  obtain ⟨t, ⟨bytes, rfl, hbytes⟩, hend⟩ := s.recorded.read_receives Prod.snd limit (w, [])
  have hrecorded : s.recorded.read limit (w, []) = _ := s.perform_recorded w (.read limit)
  rw [hrecorded] at hend hbytes
  have hdelivered : delivered (s.exchanges w (.read limit)) = bytes :=
    hbytes s.device.recorded_logs
  rcases hend with ⟨n, hle, houtcome, hsession⟩ | ⟨hfailed, hsession⟩
  · have hstaged : (s.perform w (.read limit)).session.staged = (s.staged ++ bytes).drop n :=
      congrArg Session.staged hsession
    have hreceived : (s.perform w (.read limit)).session.received = s.received + bytes.length :=
      congrArg Session.received hsession
    have hframe : (s.perform w (.read limit)).outcome = .ok ((s.staged ++ bytes).take n) := houtcome
    unfold step
    rw [hframe]
    refine ⟨?_, ?_, fun hstep ↦ ?_⟩
    · show (s.staged ++ bytes).take n ++ (s.perform w (.read limit)).session.staged =
        s.staged ++ delivered (s.exchanges w (.read limit))
      rw [hstaged, List.take_append_drop, hdelivered]
    · show (s.perform w (.read limit)).session.received =
        s.received + (delivered (s.exchanges w (.read limit))).length
      rw [hreceived, hdelivered]
    · cases hstep
      exact Nat.le_trans (List.length_take_le n _) hle
  · have hstaged : (s.perform w (.read limit)).session.staged = s.staged ++ bytes :=
      congrArg Session.staged hsession
    have hreceived : (s.perform w (.read limit)).session.received = s.received + bytes.length :=
      congrArg Session.received hsession
    unfold step
    cases hframe : (s.perform w (.read limit)).outcome with
    | ok frame => exact absurd hframe (hfailed frame)
    | _ =>
      refine ⟨?_, ?_, fun hstep ↦ by cases hstep⟩
      · show (s.perform w (.read limit)).session.staged =
          s.staged ++ delivered (s.exchanges w (.read limit))
        rw [hstaged, hdelivered]
      · show (s.perform w (.read limit)).session.received =
          s.received + (delivered (s.exchanges w (.read limit))).length
        rw [hreceived, hdelivered]

theorem clear_keepsInput (s : Session World) (w : World) : (s.step w .clear).KeepsInput := by
  have hsession : (s.perform w .clear).session = { s with staged := [] } := s.clear_session w
  have hnone : delivered (s.exchanges w .clear) = [] :=
    s.delivered_exchanges_eq_nil w fun _ hmakes ↦ by cases hmakes
  refine ⟨?_, ?_, fun hstep ↦ by cases hstep⟩
  · show s.staged ++ (s.perform w .clear).session.staged =
      s.staged ++ delivered (s.exchanges w .clear)
    rw [hsession, hnone]
  · show (s.perform w .clear).session.received =
      s.received + (delivered (s.exchanges w .clear)).length
    rw [hsession, hnone]
    rfl

/-- Operations that are not about input keep the law of input by leaving everything as it is. -/
theorem keepsInput_of_not_touchesInput (s : Session World) (w : World) {op : Operation}
    (hop : ¬ op.TouchesInput) : (s.step w op).KeepsInput := by
  have hread : ∀ limit, op ≠ .read limit := fun limit h ↦ hop (h ▸ trivial)
  have hnone : delivered (s.exchanges w op) = [] := by
    refine s.delivered_exchanges_eq_nil w fun room hmakes ↦ ?_
    cases op <;> simp_all [Operation.Makes]
  have hnothing : (s.step w op).handedOut = [] := by
    cases op with
    | read limit => exact absurd rfl (hread limit)
    | clear => exact absurd trivial hop
    | _ => rfl
  obtain ⟨hstaged, hreceived⟩ := (s.perform_frame w op).staged_eq hop
  refine ⟨?_, ?_, fun hstep ↦ ?_⟩
  · rw [hnothing]
    show (s.perform w op).session.staged = s.staged ++ delivered (s.exchanges w op)
    rw [hstaged, hnone, List.append_nil]
  · show (s.perform w op).session.received = s.received + (delivered (s.exchanges w op)).length
    rw [hreceived, hnone]
    rfl
  · exact absurd (congrArg Step.op hstep) (hread _)

/-- Every operation keeps the law of input, over every device. -/
theorem step_keepsInput (s : Session World) (w : World) (op : Operation) :
    (s.step w op).KeepsInput := by
  cases op with
  | read limit => exact s.read_keepsInput w limit
  | clear => exact s.clear_keepsInput w
  | _ => exact s.keepsInput_of_not_touchesInput w not_false

/-! ### Whole histories -/

/-- The law of input for one operation after another. -/
theorem run_keepsInput (s : Session World) (w : World) (ops : List Operation) :
    (s.run w ops).steps.flatMap Step.handedOut ++ (s.run w ops).session.staged =
        s.staged ++ delivered (s.run w ops).exchanges ∧
      (s.run w ops).session.received =
        s.received + (delivered (s.run w ops).exchanges).length := by
  induction ops generalizing s w with
  | nil =>
    show s.staged = s.staged ++ [] ∧ s.received = s.received + 0
    rw [List.append_nil]
    exact ⟨rfl, rfl⟩
  | cons op ops ih =>
    obtain ⟨hstaged, hreceived⟩ := ih (s.perform w op).session (s.perform w op).world
    have hstep := s.step_keepsInput w op
    rw [run_cons_steps, run_cons_session, run_cons_exchanges, List.flatMap_cons, delivered_append]
    constructor
    · rw [List.append_assoc, hstaged, ← List.append_assoc, ← List.append_assoc]
      exact congrArg (· ++ _) hstep.staged_eq
    · rw [hreceived, List.length_append, ← Nat.add_assoc]
      exact congrArg (· + _) hstep.received_eq

/-- The bytes that reads have returned and clearing has dropped, in the order of the operations,
followed by the bytes that are still staged, are the bytes that the device has delivered, and the
session has counted them. No read has returned more than it was asked for, and a read that failed
has left everything it gathered at the end of what was staged. -/
theorem input_conserved (port : Port) (device : Device World) (settings : LineSettings) (w : World)
    (ops : List Operation) :
    let run := ({ port, device, settings } : Session World).run w ops
    run.steps.flatMap Step.handedOut ++ run.session.staged = delivered run.exchanges ∧
      run.session.received = (delivered run.exchanges).length ∧
      (∀ limit before frame exchanges after,
        ⟨.read limit, before, .ok frame, exchanges, after⟩ ∈ run.steps → frame.length ≤ limit) ∧
      ∀ limit before e exchanges after,
        ⟨.read limit, before, .error e, exchanges, after⟩ ∈ run.steps →
          after.staged = before.staged ++ delivered exchanges := by
  intro run
  have hlaw : ∀ x ∈ run.steps, Step.KeepsInput x := by
    intro x hx
    obtain ⟨t, v, op, -, rfl⟩ := exists_step_of_mem_run hx
    exact t.step_keepsInput v op
  obtain ⟨hstaged, hreceived⟩ := run_keepsInput { port, device, settings } w ops
  refine ⟨hstaged, hreceived.trans (Nat.zero_add _), ?_, ?_⟩
  · intro limit before frame exchanges after hmem
    exact (hlaw _ hmem).frame_le rfl
  · intro limit before e exchanges after hmem
    exact (hlaw _ hmem).staged_eq

end Session

end SerialLine
