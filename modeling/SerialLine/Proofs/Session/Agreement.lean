import SerialLine.Session.Operation
import SerialLine.Proofs.Exchange
/-!
# Sessions over devices that answer alike

What a session does depends on its device only through the answers that it gets. `perform_agrees`
states this for all operations: over two devices that agree on the calls an operation may make
(`Operation.Makes`), the operation ends in the same way and leaves the same session behind, and the
worlds stay related. Nor does it matter what time it is: `perform_agreesAfter` is the same for a
device whose clock is ahead of the other, as long as the clocks can tell the deadlines.

Applied to a device and its recorded form this makes the exchanges of an operation observable, which
histories are stated in.
-/

set_option autoImplicit false

namespace SerialLine

/-- The calls that an operation may make. -/
def Operation.Makes : Operation → Call → Prop
  | .set change, call => call = .set change
  | .setWriteBufferSize _, call => ∃ offered, call = .write offered
  | .setWriteMode _, call | .write _, call | .flush, call =>
    call = .flush ∨ ∃ offered, call = .write offered
  | .bytesAvailable, call => call = .bytesToRead
  | .read _, call => (∃ limit, call = .set (.timeout limit)) ∨ ∃ room, call = .read room
  | .clear, call => call = .clearInput
  | .discardOutput, call => call = .clearOutput
  | .setReadBufferSize _, _ | .enableTermination _, _ | .disableTermination, _ => False

namespace Session

variable {World Other : Type} {α β : Type}

/-- The session over another device. -/
def withDevice (s : Session World) (device : Device Other) : Session Other where
  port := s.port
  device := device
  settings := s.settings
  termination := s.termination
  staged := s.staged
  pending := s.pending
  sent := s.sent
  received := s.received
  closed := s.closed

@[simp] theorem withDevice_device (s : Session World) (device : Device Other) :
    (s.withDevice device).device = device := rfl

@[simp] theorem withDevice_settings (s : Session World) (device : Device Other) :
    (s.withDevice device).settings = s.settings := rfl

@[simp] theorem withDevice_pending (s : Session World) (device : Device Other) :
    (s.withDevice device).pending = s.pending := rfl

theorem withDevice_countSent (s : Session World) (device : Device Other) (push : Push) :
    (s.withDevice device).countSent push = (s.countSent push).withDevice device := rfl

theorem withDevice_dropSent (s : Session World) (device : Device Other) (push : Push) :
    (s.withDevice device).dropSent push = (s.dropSent push).withDevice device := rfl

theorem withDevice_buffer (s : Session World) (device : Device Other) (data : Bytes) :
    (s.withDevice device).buffer data = (s.buffer data).withDevice device := rfl

/-- Two results of one operation over different devices: the same outcome, the same session but for
the device, and related worlds. -/
def Result.Agrees (device : Device World) (other : Device Other)
    (related : World → Other → Prop) (r : Result World α) (r' : Result Other α) : Prop :=
  ∃ outcome t w v, r = ⟨outcome, t, w⟩ ∧ r' = ⟨outcome, t.withDevice other, v⟩ ∧
    t.device = device ∧ related w v

section Agreement

variable {device : Device World} {other : Device Other} {kind : Call → Prop}
  {related : World → Other → Prop} {delay : Nat}

/-! ### Pushing bytes -/

theorem pushLoop_agrees (h : device.AgreesAfter other delay kind related)
    (hwrite : ∀ offered, kind (.write offered)) (calls : Nat) :
    ∀ (bytes : Bytes) (w : World) (v : Other), related w v → ∃ push w' v',
      device.pushLoop calls bytes w = (push, w') ∧ other.pushLoop calls bytes v = (push, v') ∧
        related w' v' := by
  induction calls with
  | zero =>
    intro bytes w v hr
    cases bytes <;> exact ⟨_, w, v, rfl, rfl, hr⟩
  | succ calls ih =>
    intro bytes w v hr
    cases bytes with
    | nil => exact ⟨_, w, v, rfl, rfl, hr⟩
    | cons b bs =>
      obtain ⟨answer, w', v', hw, hv, hr'⟩ := h.perform_eq (hwrite (b :: bs)) hr
      simp only [Device.pushLoop, hw, hv]
      match answer with
      | .ok 0 => exact ⟨_, w', v', rfl, rfl, hr'⟩
      | .ok (n + 1) =>
        obtain ⟨push, w'', v'', hw', hv', hr''⟩ := ih (bs.drop n) w' v' hr'
        simp only [hw', hv']
        exact ⟨_, w'', v'', rfl, rfl, hr''⟩
      | .error ⟨cause, text⟩ =>
        cases cause with
        | interrupted => exact ih (b :: bs) w' v' hr'
        | _ => exact ⟨_, w', v', rfl, rfl, hr'⟩

theorem push_agrees (h : device.AgreesAfter other delay kind related)
    (hwrite : ∀ offered, kind (.write offered)) (bytes : Bytes) {w : World} {v : Other}
    (hr : related w v) : ∃ push w' v', device.push bytes w = (push, w') ∧
      other.push bytes v = (push, v') ∧ related w' v' := by
  unfold Device.push
  rw [h.patience_eq hr]
  exact pushLoop_agrees h hwrite _ bytes w v hr

theorem flushDevice_agrees {s : Session World} (h : s.device.AgreesAfter other delay kind related)
    (hflush : kind .flush) {w : World} {v : Other} (hr : related w v) :
    Result.Agrees s.device other related (s.flushDevice w)
      ((s.withDevice other).flushDevice v) := by
  obtain ⟨answer, w', v', hw, hv, hr'⟩ := h.perform_eq hflush hr
  simp only [flushDevice, withDevice_device, hw, hv]
  cases answer <;> exact ⟨_, s, w', v', rfl, rfl, rfl, hr'⟩

theorem flush_agrees {s : Session World} (h : s.device.AgreesAfter other delay kind related)
    (hflush : kind .flush) (hwrite : ∀ offered, kind (.write offered)) {w : World} {v : Other}
    (hr : related w v) :
    Result.Agrees s.device other related (s.flush w) ((s.withDevice other).flush v) := by
  obtain ⟨push, w', v', hw, hv, hr'⟩ := push_agrees h hwrite s.pending hr
  simp only [flush, withDevice_pending, withDevice_device, withDevice_dropSent, hw, hv]
  cases s.pending with
  | nil => exact flushDevice_agrees h hflush hr
  | cons b bs =>
    cases push.ending with
    | complete => exact flushDevice_agrees (s := s.dropSent push) h hflush hr'
    | _ => exact ⟨_, s.dropSent push, w', v', rfl, rfl, rfl, hr'⟩

theorem drainLoop_agrees (hwrite : ∀ offered, kind (.write offered)) (buffers : Nat) :
    ∀ (s : Session World) (w : World) (v : Other), s.device.AgreesAfter other delay kind related →
      related w v → Result.Agrees s.device other related (drainLoop buffers s w)
        (drainLoop buffers (s.withDevice other) v) := by
  induction buffers with
  | zero => exact fun s w v _ hr ↦ ⟨_, s, w, v, rfl, rfl, rfl, hr⟩
  | succ buffers ih =>
    intro s w v h hr
    by_cases hroom : s.pending.length < s.settings.writeBufferSize
    · have hroom' : (s.withDevice other).pending.length <
          (s.withDevice other).settings.writeBufferSize := hroom
      simp only [drainLoop, if_pos hroom, if_pos hroom']
      exact ⟨_, s, w, v, rfl, rfl, rfl, hr⟩
    · obtain ⟨push, w', v', hw, hv, hr'⟩ :=
        push_agrees h hwrite (s.pending.take s.settings.writeBufferSize) hr
      simp only [drainLoop, if_neg hroom, withDevice_pending, withDevice_settings,
        withDevice_device, withDevice_dropSent, hw, hv]
      cases push.ending with
      | complete => exact ih (s.dropSent push) w' v' h hr'
      | _ => exact ⟨_, s.dropSent push, w', v', rfl, rfl, rfl, hr'⟩

theorem drain_agrees {s : Session World} (h : s.device.AgreesAfter other delay kind related)
    (hwrite : ∀ offered, kind (.write offered)) {w : World} {v : Other} (hr : related w v) :
    Result.Agrees s.device other related (s.drain w) ((s.withDevice other).drain v) := by
  simp only [drain, withDevice_settings, withDevice_pending]
  cases s.settings.writeMode with
  | flushOnAccess => exact ⟨_, s, w, v, rfl, rfl, rfl, hr⟩
  | flushWhenFull => exact drainLoop_agrees hwrite _ s w v h hr

theorem write_agrees {s : Session World} (h : s.device.AgreesAfter other delay kind related)
    (hflush : kind .flush) (hwrite : ∀ offered, kind (.write offered)) (data : Bytes) {w : World}
    {v : Other} (hr : related w v) :
    Result.Agrees s.device other related (s.write data w) ((s.withDevice other).write data v) := by
  simp only [write, withDevice_settings, withDevice_device, withDevice_pending,
    withDevice_countSent, withDevice_buffer]
  cases s.settings.writeMode with
  | flushOnAccess =>
    obtain ⟨push, w', v', hw, hv, hr'⟩ := push_agrees h hwrite data hr
    simp only [hw, hv]
    cases push.ending with
    | complete =>
      obtain ⟨outcome, t, w'', v'', hw', hv', hdevice, hr''⟩ :=
        flushDevice_agrees (s := s.countSent push) h hflush hr'
      simp only [hw', hv']
      cases outcome <;> exact ⟨_, t, w'', v'', rfl, rfl, hdevice, hr''⟩
    | _ => exact ⟨_, s.countSent push, w', v', rfl, rfl, rfl, hr'⟩
  | flushWhenFull =>
    obtain ⟨outcome, t, w', v', hw, hv, hdevice, hr'⟩ :=
      drain_agrees (s := s.buffer data) h hwrite hr
    simp only [hw, hv]
    cases outcome <;> exact ⟨_, _, w', v', rfl, rfl, hdevice, hr'⟩

/-! ### Settings -/

theorem configure_agrees {s : Session World} (h : s.device.AgreesAfter other delay kind related)
    {change : Setting} (hset : kind (.set change)) {w : World} {v : Other} (hr : related w v) :
    Result.Agrees s.device other related (s.configure change w)
      ((s.withDevice other).configure change v) := by
  obtain ⟨answer, w', v', hw, hv, hr'⟩ := h.perform_eq hset hr
  simp only [configure, withDevice_device, hw, hv]
  cases answer <;> exact ⟨_, _, w', v', rfl, rfl, rfl, hr'⟩

theorem set_agrees {s : Session World} (h : s.device.AgreesAfter other delay kind related)
    {change : Setting} (hset : kind (.set change)) {w : World} {v : Other} (hr : related w v) :
    Result.Agrees s.device other related (s.set change w)
      ((s.withDevice other).set change v) := by
  have hconfigure := configure_agrees h hset hr
  cases change with
  | baudRate rate =>
    simp only [set]
    cases checkBaudRate rate with
    | error reason => exact ⟨_, s, w, v, rfl, rfl, rfl, hr⟩
    | ok _ => exact hconfigure
  | _ => exact hconfigure

theorem setReadBufferSize_agrees {s : Session World} (size : Nat) {w : World} {v : Other}
    (hr : related w v) :
    Result.Agrees s.device other related (s.setReadBufferSize size w)
      ((s.withDevice other).setReadBufferSize size v) := by
  simp only [setReadBufferSize]
  cases checkBufferSize .read size <;> exact ⟨_, _, w, v, rfl, rfl, rfl, hr⟩

theorem setWriteBufferSize_agrees {s : Session World}
    (h : s.device.AgreesAfter other delay kind related)
    (hwrite : ∀ offered, kind (.write offered)) (size : Nat) {w : World} {v : Other}
    (hr : related w v) :
    Result.Agrees s.device other related (s.setWriteBufferSize size w)
      ((s.withDevice other).setWriteBufferSize size v) := by
  simp only [setWriteBufferSize]
  cases checkBufferSize .write size with
  | error reason => exact ⟨_, s, w, v, rfl, rfl, rfl, hr⟩
  | ok _ =>
    exact drain_agrees (s := { s with settings := { s.settings with writeBufferSize := size } })
      h hwrite hr

theorem setWriteMode_agrees {s : Session World} (h : s.device.AgreesAfter other delay kind related)
    (hflush : kind .flush) (hwrite : ∀ offered, kind (.write offered)) (mode : WriteMode)
    {w : World} {v : Other} (hr : related w v) :
    Result.Agrees s.device other related (s.setWriteMode mode w)
      ((s.withDevice other).setWriteMode mode v) := by
  by_cases hleaving : mode = .flushOnAccess ∧ s.pending ≠ []
  · obtain ⟨outcome, t, w', v', hw, hv, hdevice, hr'⟩ := flush_agrees h hflush hwrite hr
    have hleaving' : mode = .flushOnAccess ∧ (s.withDevice other).pending ≠ [] := hleaving
    simp only [setWriteMode, if_pos hleaving, if_pos hleaving', hw, hv]
    cases outcome <;> exact ⟨_, _, w', v', rfl, rfl, hdevice, hr'⟩
  · have hleaving' : ¬ (mode = .flushOnAccess ∧ (s.withDevice other).pending ≠ []) := hleaving
    simp only [setWriteMode, if_neg hleaving, if_neg hleaving']
    exact ⟨_, _, w, v, rfl, rfl, rfl, hr⟩

/-! ### Reading -/

theorem bytesAvailable_agrees {s : Session World}
    (h : s.device.AgreesAfter other delay kind related) (hcall : kind .bytesToRead) {w : World}
    {v : Other} (hr : related w v) :
    Result.Agrees s.device other related (s.bytesAvailable w)
      ((s.withDevice other).bytesAvailable v) := by
  obtain ⟨answer, w', v', hw, hv, hr'⟩ := h.perform_eq hcall hr
  simp only [bytesAvailable, withDevice_device, hw, hv]
  cases answer <;> exact ⟨_, s, w', v', rfl, rfl, rfl, hr'⟩

theorem fill_agrees {s : Session World} (h : s.device.AgreesAfter other delay kind related)
    (hset : ∀ limit, kind (.set (.timeout limit))) (hread : ∀ room, kind (.read room))
    (limit : Duration) {w : World} {v : Other} (hr : related w v) :
    Result.Agrees s.device other related (s.fill limit w)
      ((s.withDevice other).fill limit v) := by
  obtain ⟨answer, w', v', hw, hv, hr'⟩ := h.perform_eq (hset limit) hr
  simp only [fill, withDevice_device, withDevice_settings, hw, hv]
  cases answer with
  | error e => exact ⟨_, s, w', v', rfl, rfl, rfl, hr'⟩
  | ok _ =>
    obtain ⟨answer, w'', v'', hw', hv', hr''⟩ :=
      h.perform_eq (hread s.settings.readBufferSize) hr'
    simp only [hw', hv']
    cases answer with
    | error e =>
      obtain ⟨cause, text⟩ := e
      cases cause <;> exact ⟨_, s, w'', v'', rfl, rfl, rfl, hr''⟩
    | ok bytes => exact ⟨_, _, w'', v'', rfl, rfl, rfl, hr''⟩

/-- The time that is left is the same: both the deadline and the time are later by the delay. -/
theorem gatherLoop_agrees (hset : ∀ limit, kind (.set (.timeout limit)))
    (hread : ∀ room, kind (.read room)) (limit deadline fills : Nat) :
    ∀ (attempted : Bool) (s : Session World) (w : World) (v : Other),
      s.device.AgreesAfter other delay kind related → related w v →
        Result.Agrees s.device other related (gatherLoop limit deadline fills attempted s w)
          (gatherLoop limit (deadline + delay) fills attempted (s.withDevice other) v) := by
  induction fills with
  | zero => exact fun _ s w v _ hr ↦ ⟨_, s, w, v, rfl, rfl, rfl, hr⟩
  | succ fills ih =>
    intro attempted s w v h hr
    have hready : (s.withDevice other).FrameReady limit ↔ s.FrameReady limit := Iff.rfl
    simp only [gatherLoop, hready, withDevice_device, h.now_eq hr, Nat.add_sub_add_right]
    by_cases hframe : s.FrameReady limit
    · simp only [if_pos hframe]
      exact ⟨_, s, w, v, rfl, rfl, rfl, hr⟩
    · by_cases hlate : deadline - s.device.now w = 0 ∧ attempted
      · simp only [if_neg hframe, if_pos hlate]
        exact ⟨_, s, w, v, rfl, rfl, rfl, hr⟩
      · obtain ⟨outcome, t, w', v', hw, hv, hdevice, hr'⟩ :=
          fill_agrees h hset hread ⟨deadline - s.device.now w⟩ hr
        simp only [if_neg hframe, if_neg hlate, hw, hv]
        cases outcome with
        | ok _ => exact hdevice ▸ ih true t w' v' (hdevice ▸ h) hr'
        | _ => exact ⟨_, t, w', v', rfl, rfl, hdevice, hr'⟩

theorem restoreTimeout_agrees {s : Session World}
    (h : s.device.AgreesAfter other delay kind related)
    (hset : ∀ limit, kind (.set (.timeout limit))) {w : World} {v : Other} (hr : related w v) :
    related (s.restoreTimeout w) ((s.withDevice other).restoreTimeout v) := by
  obtain ⟨_, w', v', hw, hv, hr'⟩ := h.perform_eq (hset s.settings.timeout) hr
  simp only [restoreTimeout, withDevice_device, withDevice_settings, hw, hv]
  exact hr'

/-- Reads end alike if both clocks can tell the deadline or neither can. -/
theorem read_agrees {s : Session World} (h : s.device.AgreesAfter other delay kind related)
    (hset : ∀ limit, kind (.set (.timeout limit))) (hread : ∀ room, kind (.read room))
    (limit : Nat) {w : World} {v : Other} (hr : related w v)
    (hclock : limit ≠ 0 → (clockLimit ≤ s.device.now w + s.settings.timeout.nanos ↔
      clockLimit ≤ other.now v + s.settings.timeout.nanos)) :
    Result.Agrees s.device other related (s.read limit w)
      ((s.withDevice other).read limit v) := by
  simp only [read, withDevice_device, withDevice_settings, h.patience_eq hr]
  by_cases hnothing : limit = 0
  · simp only [if_pos hnothing]
    exact ⟨_, s, w, v, rfl, rfl, rfl, hr⟩
  · have hclock := hclock hnothing
    by_cases hoverflow : clockLimit ≤ s.device.now w + s.settings.timeout.nanos
    · simp only [if_neg hnothing, if_pos hoverflow, if_pos (hclock.mp hoverflow)]
      exact ⟨_, s, w, v, rfl, rfl, rfl, hr⟩
    · obtain ⟨outcome, t, w', v', hw, hv, hdevice, hr'⟩ := gatherLoop_agrees hset hread limit
        (s.device.now w + s.settings.timeout.nanos) (limit + s.device.patience w + 2) false s w v
        h hr
      have hr'' := restoreTimeout_agrees (s := t) (hdevice ▸ h) hset hr'
      rw [Nat.add_right_comm, ← h.now_eq hr] at hv
      simp only [if_neg hnothing, if_neg hoverflow, if_neg (mt hclock.mpr hoverflow), hw, hv]
      cases outcome <;> exact ⟨_, _, _, _, rfl, rfl, hdevice, hr''⟩

/-! ### Dropping -/

theorem clear_agrees {s : Session World} (h : s.device.AgreesAfter other delay kind related)
    (hcall : kind .clearInput) {w : World} {v : Other} (hr : related w v) :
    Result.Agrees s.device other related (s.clear w) ((s.withDevice other).clear v) := by
  obtain ⟨answer, w', v', hw, hv, hr'⟩ := h.perform_eq hcall hr
  simp only [clear, withDevice_device, hw, hv]
  cases answer <;> exact ⟨_, _, w', v', rfl, rfl, rfl, hr'⟩

theorem discardOutput_agrees {s : Session World}
    (h : s.device.AgreesAfter other delay kind related) (hcall : kind .clearOutput) {w : World}
    {v : Other} (hr : related w v) :
    Result.Agrees s.device other related (s.discardOutput w)
      ((s.withDevice other).discardOutput v) := by
  obtain ⟨_, w', v', hw, hv, hr'⟩ := h.perform_eq hcall hr
  simp only [discardOutput, withDevice_device, hw, hv]
  exact ⟨_, _, w', v', rfl, rfl, rfl, hr'⟩

/-! ### Closing -/

theorem close_agrees {s : Session World} (h : s.device.AgreesAfter other delay kind related)
    (hflush : kind .flush) (hwrite : ∀ offered, kind (.write offered)) (hclear : kind .clearOutput)
    {w : World} {v : Other} (hr : related w v) :
    Result.Agrees s.device other related (s.close w) ((s.withDevice other).close v) := by
  simp only [close, withDevice_pending]
  cases s.pending with
  | nil => exact ⟨_, _, w, v, rfl, rfl, rfl, hr⟩
  | cons b bs =>
    obtain ⟨outcome, t, w', v', hw, hv, hdevice, hr'⟩ := flush_agrees h hflush hwrite hr
    simp only [hw, hv]
    cases outcome with
    | error e =>
      obtain ⟨_, t', w'', v'', hw', hv', hdevice', hr''⟩ :=
        discardOutput_agrees (s := t) (hdevice ▸ h) hclear hr'
      simp only [hw', hv']
      exact ⟨_, _, w'', v'', rfl, rfl, hdevice'.trans hdevice, hr''⟩
    | _ => exact ⟨_, _, w', v', rfl, rfl, hdevice, hr'⟩

/-! ### All operations -/

/-- Over devices that agree on the calls it may make but for a delay, an operation ends alike,
unless it is a read of which only one clock can tell the deadline. -/
theorem perform_agreesAfter {s : Session World} {op : Operation}
    (h : s.device.AgreesAfter other delay op.Makes related) {w : World} {v : Other}
    (hr : related w v)
    (hclock : ∀ limit, op = .read limit → limit ≠ 0 →
      (clockLimit ≤ s.device.now w + s.settings.timeout.nanos ↔
        clockLimit ≤ other.now v + s.settings.timeout.nanos)) :
    Result.Agrees s.device other related (s.perform w op)
      ((s.withDevice other).perform v op) := by
  cases op with
  | set change => exact set_agrees h rfl hr
  | setReadBufferSize size => exact setReadBufferSize_agrees size hr
  | setWriteBufferSize size => exact setWriteBufferSize_agrees h (fun _ ↦ ⟨_, rfl⟩) size hr
  | setWriteMode mode =>
    exact setWriteMode_agrees h (.inl rfl) (fun _ ↦ .inr ⟨_, rfl⟩) mode hr
  | enableTermination b => exact ⟨_, _, w, v, rfl, rfl, rfl, hr⟩
  | disableTermination => exact ⟨_, _, w, v, rfl, rfl, rfl, hr⟩
  | bytesAvailable => exact bytesAvailable_agrees h rfl hr
  | read limit =>
    exact read_agrees h (fun _ ↦ .inl ⟨_, rfl⟩) (fun _ ↦ .inr ⟨_, rfl⟩) limit hr
      (hclock limit rfl)
  | write data => exact write_agrees h (.inl rfl) (fun _ ↦ .inr ⟨_, rfl⟩) data hr
  | flush => exact flush_agrees h (.inl rfl) (fun _ ↦ .inr ⟨_, rfl⟩) hr
  | clear => exact clear_agrees h rfl hr
  | discardOutput => exact discardOutput_agrees h rfl hr

/-- Over devices that agree on the calls it may make, an operation ends alike. -/
theorem perform_agrees {s : Session World} {op : Operation}
    (h : s.device.Agrees other op.Makes related) {w : World} {v : Other} (hr : related w v) :
    Result.Agrees s.device other related (s.perform w op)
      ((s.withDevice other).perform v op) :=
  perform_agreesAfter h.agreesAfter hr fun _ _ _ ↦ by rw [h.now_eq hr]

end Agreement

end Session

end SerialLine
