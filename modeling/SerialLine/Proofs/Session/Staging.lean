import SerialLine.Proofs.Session.Devices
import SerialLine.Proofs.Session.History
/-!
# How much a session stages

A read asks its device for bytes as long as the staged bytes do not hold a whole frame, and only
then: it makes no read of the device if they hold one (`exchanges_read_of_ready`), and it has made
one if it succeeds although they did not (`mem_exchanges_of_not_ready`).

So a chunk only comes on top of bytes that are all part of the frame, and a frame that is then
complete ends within the chunk. What a read would leave staged if it succeeded
(`Session.leftover`) therefore stays below any bound on the read buffer
(`Gathers.leftover_lt`). A read that fails leaves an incomplete frame, which is shorter than what it
was asked for (`Gathers.not_ready_of_error`). Every operation keeps the number of staged bytes below
a bound on both (`perform_staged_lt`), and a session that starts with nothing staged never stages as
much as the largest size it has worked with (`staging_bounded`).
-/

set_option autoImplicit false

namespace SerialLine

/-- How many bytes an operation asks for. -/
def Operation.limit : Operation → Nat
  | .read limit => limit
  | _ => 0

namespace Script

theorem length_le_of_read {s : Script} {room : Nat} {bytes : Bytes}
    (h : (s.read room).1 = .ok bytes) : bytes.length ≤ room := by
  unfold Script.read at h
  split at h
  · cases h
  · cases h
  · cases h
    exact List.length_take_le room _

/-- Whoever reads from a script, with or without the layer for host ports, gets no more bytes than
there is room for. -/
theorem Speaks.deliversWhatFits {device : Device Script} (h : Speaks device) :
    device.DeliversWhatFits := by
  intro room s bytes hanswer
  obtain ⟨seen, hread⟩ := h.read_eq room s
  rw [hread] at hanswer
  have hfits : ((s.note seen).read room).1 = .ok bytes → bytes.length ≤ room := length_le_of_read
  rcases hdone : (s.note seen).read room with ⟨e | delivered, s'⟩ <;> rw [hdone] at hanswer hfits
  · cases hanswer
  · cases hanswer
    exact hfits rfl

end Script

namespace Session

variable {World : Type} {s : Session World} {limit bound : Nat}

/-! ### Reads that ask the device -/

/-- The staged bytes hold a whole frame: as many bytes as are asked for, or a terminator. -/
def HoldsFrame (s : Session World) (limit : Nat) : Prop :=
  limit ≤ s.staged.length ∨ ∃ t, s.termination.terminator = some t ∧ t ∈ s.staged

theorem frameReady_iff_holdsFrame : s.FrameReady limit ↔ s.HoldsFrame limit :=
  Termination.ready_iff

/-- If the frame is ready, a read at most gives the device its timeout back. -/
theorem exchanges_read_of_ready (h : s.FrameReady limit) (w : World) :
    s.exchanges w (.read limit) = [] ∨ s.exchanges w (.read limit) =
      [s.device.exchange (.set (.timeout s.settings.timeout)) w] := by
  have hready : s.recorded.FrameReady limit := h
  show (s.recorded.read limit (w, [])).world.2 = [] ∨ (s.recorded.read limit (w, [])).world.2 =
    [s.device.exchange (.set (.timeout s.settings.timeout)) w]
  have hends := s.recorded.read_ends limit (w, [])
  generalize s.recorded.read limit (w, []) = done at hends ⊢
  cases hends with
  | nothing | overflow => exact .inl rfl
  | frame _ gathered | failed _ gathered =>
    rw [gatherLoop_of_ready hready] at gathered
    cases gathered <;> exact .inr rfl

section Logs

variable {log : World → List Exchange} {wait : Duration} {w : World}

/-- A fill changes the world by calls of the device alone, so nothing is taken off its log. -/
theorem Fills.log_grows {done : Result World Unit} (h : Fills s wait w done)
    (hlog : s.device.Logs log) : log w <+: log done.world := by
  have hcall (call : Call) (w : World) : log w <+: log (s.device.perform call w).2 := by
    rw [hlog call w]
    exact List.prefix_append _ _
  have htold := hcall (.set (.timeout wait)) w
  have hasked := htold.trans (hcall (.read s.settings.readBufferSize) _)
  cases h with
  | refused told =>
    rw [told] at htold
    exact htold
  | staged told asked | silent told asked | failed told asked =>
    rw [told, asked] at hasked
    exact hasked

theorem Gathers.log_grows {done : Result World Unit} (h : Gathers limit s w done)
    (hlog : s.device.Logs log) : log w <+: log done.world := by
  induction h with
  | stopped => exact List.prefix_refl _
  | filled _ fill _ ih =>
    obtain ⟨bytes, rfl⟩ := fill.session_eq
    exact (fill.log_grows hlog).trans (ih hlog)
  | failed _ fill => exact fill.log_grows hlog

/-- A fill that comes to a good end has asked the device. -/
theorem Fills.asks {t : Session World} {v : World} (h : Fills s wait w ⟨.ok (), t, v⟩)
    (hlog : s.device.Logs log) : ∃ x ∈ log v, x.call = .read s.settings.readBufferSize := by
  cases h with
  | @staged told _ _ _ asked | @silent told _ _ _ asked =>
    have hlogged := hlog (.read s.settings.readBufferSize) told
    rw [asked] at hlogged
    rw [hlogged]
    exact ⟨_, List.mem_append_right _ (List.mem_singleton.mpr rfl), rfl⟩

/-- A gathering that comes to a good end has asked the device if there was no whole frame. -/
theorem gatherLoop_asks (hlog : s.device.Logs log) (h : ¬s.FrameReady limit)
    {deadline fills : Nat} {t : Session World} {v : World}
    (hgathered : gatherLoop limit deadline (fills + 1) false s w = ⟨.ok (), t, v⟩) :
    ∃ x ∈ log v, x.call = .read s.settings.readBufferSize := by
  have fill := s.fill_fills ⟨deadline - s.device.now w⟩ w
  unfold gatherLoop at hgathered
  simp only [if_neg h, Bool.false_eq_true, and_false, if_false] at hgathered
  rcases hfill : s.fill ⟨deadline - s.device.now w⟩ w with ⟨outcome, u, w'⟩
  rw [hfill] at fill hgathered
  cases outcome with
  | ok _ =>
    obtain ⟨x, hx, hcall⟩ := fill.asks hlog
    obtain ⟨bytes, rfl⟩ : ∃ bytes, u = s.stage bytes := fill.session_eq
    exact ⟨x, ((Gathers.of_gatherLoop hgathered).log_grows hlog).subset hx, hcall⟩
  | _ => cases hgathered

end Logs

/-- A read that succeeds has asked the device if there was no whole frame. -/
theorem mem_exchanges_of_not_ready (h : ¬s.FrameReady limit) {w : World} {frame : Bytes}
    (hok : (s.perform w (.read limit)).outcome = .ok frame) :
    ∃ x ∈ s.exchanges w (.read limit), x.call = .read s.settings.readBufferSize := by
  have hready : ¬s.recorded.FrameReady limit := h
  have hread : (s.recorded.read limit (w, [])).outcome = .ok frame :=
    (congrArg Result.outcome (s.perform_recorded w (.read limit))).trans hok
  show ∃ x ∈ (s.recorded.read limit (w, [])).world.2, _
  have hends := s.recorded.read_ends limit (w, [])
  generalize s.recorded.read limit (w, []) = done at hread hends ⊢
  cases hends with
  | nothing zero =>
    rw [zero] at h
    exact absurd (.inl (Nat.le_zero.mp (s.termination.frameLength_le_limit s.staged 0))) h
  | @frame t v _ gathered =>
    obtain ⟨x, hx, hcall⟩ := gatherLoop_asks s.device.recorded_logs hready gathered
    obtain ⟨bytes, rfl⟩ : ∃ bytes, t = s.recorded.stage bytes :=
      (Gathers.of_gatherLoop gathered).session_eq
    exact ⟨x, List.mem_append_left _ hx, hcall⟩
  | _ => cases hread

/-! ### What a read leaves staged -/

/-- The number of bytes that would be left staged after the first frame. -/
def leftover (s : Session World) (limit : Nat) : Nat := s.staged.length - s.frameLength limit

/-- A chunk that comes on top of an incomplete frame holds everything past the frame. -/
theorem leftover_stage_lt (h : ¬s.FrameReady limit) {bytes : Bytes}
    (hbytes : bytes.length ≤ bound) (hbound : 0 < bound) :
    (s.stage bytes).leftover limit < bound := by
  show (s.staged ++ bytes).length - s.termination.frameLength (s.staged ++ bytes) limit < bound
  by_cases hnone : bytes = []
  · rw [hnone, List.append_nil, Termination.frameLength_of_not_ready h, Nat.sub_self]
    exact hbound
  · have hframe := Termination.length_lt_frameLength_append h hnone
    rw [List.length_append]
    omega

namespace Gathers

variable {w v : World} {t : Session World}

/-- Every chunk comes on top of an incomplete frame. -/
theorem leftover_lt {done : Result World Unit} (h : Gathers limit s w done)
    (hfits : s.device.DeliversWhatFits) (hsize : s.settings.readBufferSize ≤ bound)
    (hs : s.leftover limit < bound) : done.session.leftover limit < bound := by
  induction h with
  | stopped => exact hs
  | filled short fill _ ih =>
    cases fill with
    | @staged _ _ bytes _ asked =>
      have hchunk : bytes.length ≤ bound :=
        Nat.le_trans (hfits _ _ bytes (congrArg Prod.fst asked)) hsize
      exact ih hfits hsize (leftover_stage_lt short hchunk (Nat.zero_lt_of_lt hs))
    | silent => exact ih hfits hsize hs
  | failed _ fill => cases fill <;> exact hs

/-- A gathering that fails leaves an incomplete frame. -/
theorem not_ready_of_error {e : SerialError} (h : Gathers limit s w ⟨.error e, t, v⟩) :
    ¬t.FrameReady limit := by
  generalize hdone : (⟨.error e, t, v⟩ : Result World Unit) = done at h
  induction h with
  | stopped => cases hdone
  | filled _ _ _ ih => exact ih hdone
  | failed short fill =>
    cases hdone
    cases fill <;> exact short

end Gathers

theorem read_staged_lt (hfits : s.device.DeliversWhatFits)
    (hsize : s.settings.readBufferSize ≤ bound) (hlimit : limit ≤ bound)
    (hs : s.staged.length < bound) (w : World) :
    (s.read limit w).session.staged.length < bound := by
  have hends := s.read_ends limit w
  generalize s.read limit w = done at hends ⊢
  cases hends with
  | nothing | overflow => exact hs
  | @frame t _ _ gathered =>
    show (t.staged.drop (t.frameLength limit)).length < bound
    rw [List.length_drop]
    have hleft : s.leftover limit < bound := Nat.lt_of_le_of_lt (Nat.sub_le _ _) hs
    exact (Gathers.of_gatherLoop gathered).leftover_lt hfits hsize hleft
  | @failed _ t _ _ gathered =>
    have hshort : t.staged.length < limit :=
      Termination.length_lt_of_not_ready (Gathers.of_gatherLoop gathered).not_ready_of_error
    exact Nat.lt_of_lt_of_le hshort hlimit

/-- An operation keeps the number of staged bytes below any bound on the read buffer and on what a
read asks for. -/
theorem perform_staged_lt (hfits : s.device.DeliversWhatFits)
    (hsize : s.settings.readBufferSize ≤ bound) (hs : s.staged.length < bound) (w : World)
    {op : Operation} (hlimit : op.limit ≤ bound) :
    (s.perform w op).session.staged.length < bound := by
  have hkept (hop : ¬op.TouchesInput) : (s.perform w op).session.staged.length < bound := by
    rw [((s.perform_frame w op).staged_eq hop).1]
    exact hs
  cases op with
  | read limit => exact read_staged_lt hfits hsize hlimit hs w
  | clear =>
    rw [perform, s.clear_session w]
    exact Nat.zero_lt_of_lt hs
  | _ => exact hkept not_false

/-! ### Whole histories -/

/-- The largest size that a step works with: that of the read buffer before and after it, and how
many bytes it asks for. -/
def Step.size (x : Step World) : Nat :=
  max (max x.before.settings.readBufferSize x.after.settings.readBufferSize) x.op.limit

/-- The largest size that some steps work with. -/
def largest (steps : List (Step World)) : Nat := (steps.map Step.size).foldr max 0

theorem largest_cons (x : Step World) (steps : List (Step World)) :
    largest (x :: steps) = max x.size (largest steps) := rfl

/-- By induction on the operations, with a bound that grows by the sizes of each step. -/
theorem run_staged_lt (hfits : s.device.DeliversWhatFits)
    (hs : s.staged.length < max bound s.settings.readBufferSize) (w : World) (ops : List Operation)
    {past future : List (Step World)} {x : Step World}
    (hsteps : (s.run w ops).steps = past ++ x :: future) :
    x.after.staged.length < max bound (largest (past ++ [x])) := by
  induction ops generalizing s w bound past with
  | nil => exact absurd hsteps.symm (List.append_ne_nil_of_right_ne_nil past (List.cons_ne_nil x _))
  | cons op ops ih =>
    have hsize : s.settings.readBufferSize ≤ (s.step w op).size :=
      Nat.le_trans (Nat.le_max_left _ _) (Nat.le_max_left _ _)
    have hlimit : op.limit ≤ (s.step w op).size := Nat.le_max_right _ _
    have hstep : (s.step w op).after.staged.length < max bound (s.step w op).size :=
      perform_staged_lt hfits (by omega) (by omega) w (by omega)
    rw [run_cons_steps] at hsteps
    cases past with
    | nil =>
      obtain ⟨rfl, -⟩ := List.cons.inj hsteps
      rw [List.nil_append, largest_cons]
      exact Nat.lt_of_lt_of_le hstep (by omega)
    | cons y past =>
      obtain ⟨rfl, hrest⟩ := List.cons.inj hsteps
      have hdevice : (s.perform w op).session.device.DeliversWhatFits :=
        (s.perform_device w op).symm ▸ hfits
      have hlater := ih hdevice (Nat.lt_of_lt_of_le hstep (Nat.le_max_left _ _)) _ hrest
      rw [List.cons_append, largest_cons, ← Nat.max_assoc]
      exact hlater

/-- A read whose staged bytes hold a whole frame makes no read of the device, and one that succeeds
although they do not has made one. After every operation fewer bytes are staged than the largest
size of the read buffer so far, or than some read so far has asked for. -/
theorem staging_bounded (port : Port) (device : Device World) (settings : LineSettings) (w : World)
    (ops : List Operation) (hfits : device.DeliversWhatFits)
    (hsize : 0 < settings.readBufferSize) :
    let run := ({ port, device, settings } : Session World).run w ops
    (∀ x ∈ run.steps, ∀ limit, x.op = .read limit → x.before.HoldsFrame limit →
      ∀ y ∈ x.exchanges, ∀ room, y.call ≠ .read room) ∧
      (∀ limit before frame exchanges after,
        ⟨.read limit, before, .ok frame, exchanges, after⟩ ∈ run.steps →
          ¬before.HoldsFrame limit → ∃ y ∈ exchanges, ∃ room, y.call = .read room) ∧
      ∀ past x future, run.steps = past ++ x :: future →
        x.after.staged.length < largest (past ++ [x]) := by
  intro run
  refine ⟨fun x hx limit hop hholds y hy room hcall ↦ ?_,
    fun limit before frame exchanges after hmem hshort ↦ ?_, fun past x future hsteps ↦ ?_⟩
  · obtain ⟨t, v, op, -, rfl⟩ := exists_step_of_mem_run hx
    obtain rfl : op = .read limit := hop
    change y ∈ t.exchanges v (.read limit) at hy
    change t.HoldsFrame limit at hholds
    rcases exchanges_read_of_ready (frameReady_iff_holdsFrame.mpr hholds) v with hnone | hrestored
    · rw [hnone] at hy
      exact absurd hy List.not_mem_nil
    · rw [hrestored] at hy
      rw [List.mem_singleton.mp hy] at hcall
      cases hcall
  · obtain ⟨t, v, op, -, hstep⟩ := exists_step_of_mem_run hmem
    obtain rfl : op = .read limit := (congrArg Step.op hstep).symm
    obtain ⟨-, rfl, hok, rfl, -⟩ := Step.mk.inj hstep
    obtain ⟨y, hy, hcall⟩ := mem_exchanges_of_not_ready
      (mt frameReady_iff_holdsFrame.mp hshort) (eq_of_heq hok).symm
    exact ⟨y, hy, _, hcall⟩
  · have hstaged := run_staged_lt (s := { port, device, settings }) hfits
      (Nat.lt_of_lt_of_le hsize (Nat.le_max_right 0 _)) w ops hsteps
    rwa [Nat.zero_max] at hstaged

/-- A terminator comes at the end of a chunk and is read without asking the device again. A read
that fails later leaves two bytes, of which the last read takes one. -/
theorem staging_bounded_scripted :
    let settings : LineSettings := { timeout := ⟨5⟩, readBufferSize := 4 }
    let script : Script :=
      { reads := [.data [1, 2, 3, 10, 5, 6], .fails ⟨.io .brokenPipe, "gone"⟩] }
    let ops : List Operation := [.enableTermination 10, .read 3, .read 9, .setReadBufferSize 2,
      .read 5, .disableTermination, .read 1]
    let start : Session Script := { port := .onboard, device := Script.device, settings }
    let run := start.run script ops
    Script.device.DeliversWhatFits ∧ 0 < settings.readBufferSize ∧
      run.steps.map (fun x ↦ (x.after.staged.length, largest [x])) =
        [(0, 4), (1, 4), (0, 9), (0, 4), (2, 5), (2, 2), (1, 2)] ∧
      ∀ past x future, run.steps = past ++ x :: future →
        x.after.staged.length < largest (past ++ [x]) := by
  intro settings script ops start run
  have hfits := Script.device_speaks.deliversWhatFits
  exact ⟨hfits, by decide, by decide +kernel,
    (staging_bounded .onboard Script.device settings script ops hfits (by decide)).2.2⟩

end Session

end SerialLine
