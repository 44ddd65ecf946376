import SerialLine.Proofs.Session.Frame
/-!
# Operations that come to an end

A device may keep a caller busy by interrupting one write after another. One that keeps to the
patience that it states (`Device.Patient`) lets every push end: each call then takes a byte, uses up
patience, stalls or fails. While whole buffers of at least one byte are pushed, the pending bytes
become fewer with every buffer that goes out (`drain_ne_halt`). So every operation of a session that
has a write buffer returns, but for a read whose deadline the clock cannot tell
(`perform_eq_halt`).
-/

set_option autoImplicit false

namespace SerialLine

namespace Device

variable {World : Type} {device : Device World}

/-- A device keeps to the patience that it states. Putting a writer off with an interruption uses
some of it up, and taking bytes adds nothing to it. -/
structure Patient (device : Device World) : Prop where
  interrupted_lt : ∀ {offered w e w'}, device.perform (.write offered) w = (.error e, w') →
    e.kind = .interrupted → device.patience w' < device.patience w
  taken_le : ∀ {offered w n w'}, device.perform (.write offered) w = (.ok n, w') →
    device.patience w' ≤ device.patience w

/-- As many calls are enough as there are bytes and interruptions. -/
theorem pushLoop_ne_unfinished (h : device.Patient) (calls : Nat) (bytes : Bytes) (w : World)
    (hcalls : bytes.length + device.patience w ≤ calls) :
    (device.pushLoop calls bytes w).1.ending ≠ .unfinished := by
  fun_induction device.pushLoop calls bytes w with
  | case2 =>
    rw [List.length_cons] at hcalls
    omega
  | case4 calls b bs w n w' hanswer rest ih =>
    change Nat at n
    refine ih ?_
    have hpatience := h.taken_le hanswer
    rw [List.length_cons] at hcalls
    rw [List.length_drop]
    omega
  | case5 calls b bs w e w' hanswer hkind ih =>
    refine ih ?_
    have hpatience := h.interrupted_lt hanswer hkind
    omega
  | _ => simp

theorem push_ne_unfinished (h : device.Patient) (bytes : Bytes) (w : World) :
    (device.push bytes w).1.ending ≠ .unfinished :=
  pushLoop_ne_unfinished h _ bytes w (Nat.le_refl _)

end Device

namespace Session

variable {World : Type}

/-! ### Writing -/

theorem flushDevice_ne_halt (s : Session World) (w : World) (reason : Halt) :
    (s.flushDevice w).outcome ≠ .halt reason := by
  obtain ⟨w', -, hok | ⟨e, herror, -⟩⟩ := flushDevice_cases (fun _ ↦ []) s w
  · simp [hok]
  · simp [herror]

theorem flush_ne_halt {s : Session World} (h : s.device.Patient) (w : World) (reason : Halt) :
    (s.flush w).outcome ≠ .halt reason := by
  have hfinished := Device.push_ne_unfinished h s.pending w
  rcases hpush : s.device.push s.pending w with ⟨⟨n, ending⟩, w'⟩
  rw [hpush] at hfinished
  rw [flush_of_push hpush]
  cases ending with
  | complete => exact flushDevice_ne_halt _ w' reason
  | unfinished => exact absurd rfl hfinished
  | stalled | failed e => simp

/-- More buffers than pending bytes are enough, by induction on the buffers. -/
theorem drainLoop_ne_halt (buffers : Nat) (s : Session World) (w : World)
    (h : s.device.Patient) (hsize : 0 < s.settings.writeBufferSize)
    (hbuffers : s.pending.length < buffers) (reason : Halt) :
    (drainLoop buffers s w).outcome ≠ .halt reason := by
  induction buffers generalizing s w with
  | zero => exact absurd hbuffers (Nat.not_lt_zero _)
  | succ buffers ih =>
    unfold drainLoop
    split
    · simp
    · next hwhole =>
      have hfinished := Device.push_ne_unfinished h (s.pending.take s.settings.writeBufferSize) w
      have hcomplete : (s.device.push (s.pending.take s.settings.writeBufferSize) w).1.ending =
          .complete → (s.pending.take s.settings.writeBufferSize).length ≤
            (s.device.push (s.pending.take s.settings.writeBufferSize) w).1.taken :=
        s.device.length_le_of_pushLoop_complete _ _ w
      rw [List.length_take, Nat.min_eq_left (Nat.le_of_not_lt hwhole)] at hcomplete
      simp only
      cases hending : (s.device.push (s.pending.take s.settings.writeBufferSize) w).1.ending with
      | complete =>
        refine ih _ _ h hsize ?_
        have hsent := hcomplete hending
        show (s.pending.drop _).length < buffers
        rw [List.length_drop]
        omega
      | stalled => simp
      | failed e =>
        simp only
        split <;> simp
      | unfinished => exact absurd hending hfinished

theorem drain_ne_halt {s : Session World} (h : s.device.Patient)
    (hsize : 0 < s.settings.writeBufferSize) (w : World) (reason : Halt) :
    (s.drain w).outcome ≠ .halt reason := by
  unfold drain
  cases s.settings.writeMode with
  | flushOnAccess => simp
  | flushWhenFull => exact drainLoop_ne_halt _ s w h hsize (Nat.lt_succ_self _) reason

/-- A write returns, in either mode. -/
theorem write_ne_halt {s : Session World} (h : s.device.Patient)
    (hsize : 0 < s.settings.writeBufferSize) (data : Bytes) (w : World) (reason : Halt) :
    (s.write data w).outcome ≠ .halt reason := by
  cases hmode : s.settings.writeMode with
  | flushOnAccess =>
    have hfinished := Device.push_ne_unfinished h data w
    unfold write
    simp only [hmode]
    cases hending : (s.device.push data w).1.ending with
    | complete =>
      obtain ⟨w', -, hok | ⟨e, herror, -⟩⟩ := flushDevice_cases (fun _ ↦ [])
        (s.countSent (s.device.push data w).1) (s.device.push data w).2
      · simp [hok]
      · simp [herror]
    | stalled => simp
    | failed e =>
      simp only
      split <;> simp
    | unfinished => exact absurd hending hfinished
  | flushWhenFull =>
    have hdrained : ((s.buffer data).drain w).outcome ≠ .halt reason :=
      drain_ne_halt (s := s.buffer data) h hsize w reason
    rcases hdrain : (s.buffer data).drain w with ⟨outcome, t, w'⟩
    rw [hdrain] at hdrained
    cases outcome with
    | ok _ => simp [write_of_drain_ok hmode hdrain]
    | error e =>
      rw [write_of_drain_error hmode hdrain rfl]
      simp only
      split <;> simp
    | halt reason' =>
      rw [write_of_drain_halt hmode hdrain]
      intro hhalt
      exact hdrained (congrArg Outcome.halt (Outcome.halt.inj hhalt))

theorem setWriteBufferSize_ne_halt {s : Session World} (h : s.device.Patient) (size : Nat)
    (w : World) (reason : Halt) : (s.setWriteBufferSize size w).outcome ≠ .halt reason := by
  unfold setWriteBufferSize checkBufferSize
  by_cases hzero : size = 0
  · simp only [if_pos hzero]
    simp
  · simp only [if_neg hzero]
    exact drain_ne_halt (s := { s with settings := { s.settings with writeBufferSize := size } })
      h (Nat.pos_of_ne_zero hzero) w reason

theorem setWriteMode_ne_halt {s : Session World} (h : s.device.Patient) (mode : WriteMode)
    (w : World) (reason : Halt) : (s.setWriteMode mode w).outcome ≠ .halt reason := by
  have hflushed := flush_ne_halt h w reason
  unfold setWriteMode
  simp only
  split
  · rcases hflush : s.flush w with ⟨outcome, t, w'⟩
    rw [hflush] at hflushed
    cases outcome with
    | halt reason' => exact hflushed
    | _ => simp
  · simp

/-! ### Reading and the rest -/

/-- A read does not come to an end exactly when it is for something and the clock cannot tell its
deadline. -/
theorem read_eq_halt_iff {s : Session World} {limit : Nat} {w : World} {reason : Halt} :
    (s.read limit w).outcome = .halt reason ↔ reason = .deadlineOverflow ∧ limit ≠ 0 ∧
      clockLimit ≤ s.device.now w + s.settings.timeout.nanos := by
  have hends := s.read_ends limit w
  generalize s.read limit w = done at hends ⊢
  cases hends with
  | nothing zero => simp [zero]
  | overflow pos late => simp [pos, late, eq_comm]
  | frame told | failed told => simp [Nat.not_le_of_lt told]

theorem read_eq_halt {s : Session World} {limit : Nat} {w : World} {reason : Halt}
    (h : (s.read limit w).outcome = .halt reason) : reason = .deadlineOverflow :=
  (read_eq_halt_iff.mp h).1

/-- Over a device that keeps to its patience, every operation of a session with a write buffer
returns, except a read whose deadline the clock cannot tell. -/
theorem perform_eq_halt {s : Session World} (h : s.device.Patient)
    (hsize : 0 < s.settings.writeBufferSize) {op : Operation} {w : World} {reason : Halt}
    (hhalt : (s.perform w op).outcome = .halt reason) :
    reason = .deadlineOverflow ∧ ∃ limit, op = .read limit := by
  cases op with
  | set change =>
    rcases s.set_cases change w with ⟨w', hset⟩ | ⟨e, w', hset⟩ <;>
      simp [perform, hset] at hhalt
  | setReadBufferSize size =>
    rcases s.setReadBufferSize_cases size w with hset | ⟨e, hset⟩ <;>
      simp [perform, hset] at hhalt
  | setWriteBufferSize size => exact absurd hhalt (setWriteBufferSize_ne_halt h size w reason)
  | setWriteMode mode => exact absurd hhalt (setWriteMode_ne_halt h mode w reason)
  | enableTermination | disableTermination => simp [perform] at hhalt
  | bytesAvailable =>
    change (s.bytesAvailable w).outcome = _ at hhalt
    unfold bytesAvailable at hhalt
    split at hhalt <;> simp at hhalt
  | read limit => exact ⟨read_eq_halt hhalt, limit, rfl⟩
  | write data => exact absurd hhalt (write_ne_halt h hsize data w reason)
  | flush => exact absurd hhalt (flush_ne_halt h w reason)
  | clear =>
    change (s.clear w).outcome = _ at hhalt
    unfold clear at hhalt
    simp only at hhalt
    split at hhalt <;> simp at hhalt
  | discardOutput => simp [perform, discardOutput] at hhalt

end Session

end SerialLine
