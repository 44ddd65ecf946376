import SerialLine.Proofs.Session.Pushes
import SerialLine.Session
/-!
# Pushing bytes at a device

A push offers bytes until all of them are taken, the device stalls, or it fails. Whatever becomes
of it, the device has taken the bytes from the front, as many as the push has counted
(`Device.pushLoop_taken`).

`Session.Sends` is what flushing and draining do to a session: bytes have left the front of what is
pending and are counted, and nothing else has changed. `flush_sends` and `drain_sends` hold on every
exit, with an error or without. A write sends its data past what is pending (`write_through`), or
comes to the same as taking in the accepted part of its data and sending from there
(`write_buffered`), also where the device fails while whole buffers are pushed.
-/

set_option autoImplicit false

namespace SerialLine

/-- Whether the device has failed to send everything it holds when it was asked to. -/
def flushFailed (log : List Exchange) : Bool := log.any Exchange.isFailedFlush

@[simp] theorem flushFailed_append (first second : List Exchange) :
    flushFailed (first ++ second) = (flushFailed first || flushFailed second) := List.any_append

@[simp] theorem flushFailed_singleton (x : Exchange) : flushFailed [x] = x.isFailedFlush :=
  Bool.or_false _

namespace Device

variable {World : Type} {device : Device World} {log : World → List Exchange}

theorem Logs.flushFailed_perform (h : device.Logs log) (call : Call) (w : World) :
    flushFailed (log (device.perform call w).2) =
      (flushFailed (log w) || (device.exchange call w).isFailedFlush) := by
  rw [h call w, flushFailed_append, flushFailed_singleton]

/-- A complete push has counted all bytes. -/
theorem length_le_of_pushLoop_complete (calls : Nat) (bytes : Bytes) (w : World)
    (h : (device.pushLoop calls bytes w).1.ending = .complete) :
    bytes.length ≤ (device.pushLoop calls bytes w).1.taken := by
  fun_induction device.pushLoop calls bytes w with
  | case1 => exact Nat.le_refl _
  | case4 calls b bs w n w' hanswer rest ih =>
    change Nat at n
    have hrest : (bs.drop n).length ≤ rest.1.taken := ih h
    rw [List.length_drop] at hrest
    show bs.length + 1 ≤ n + 1 + rest.1.taken
    omega
  | case5 _ _ _ _ _ _ _ _ ih => exact ih h
  | _ => exact absurd h (by simp)

/-- A push takes no more bytes than there are, and all of them exactly if it is complete. -/
theorem pushLoop_count (hoffer : device.TakesWhatIsOffered) (calls : Nat) (bytes : Bytes)
    (w : World) :
    (device.pushLoop calls bytes w).1.taken ≤ bytes.length ∧
      ((device.pushLoop calls bytes w).1.ending = .complete ↔
        (device.pushLoop calls bytes w).1.taken = bytes.length) := by
  fun_induction device.pushLoop calls bytes w with
  | case1 => exact ⟨Nat.le_refl _, iff_of_true rfl rfl⟩
  | case4 calls b bs w n w' hanswer rest ih =>
    change Nat at n
    have hn : n + 1 ≤ bs.length + 1 := hoffer (b :: bs) w (n + 1) (by rw [hanswer])
    have hrest : rest.1.taken ≤ (bs.drop n).length := ih.1
    have hend : rest.1.ending = .complete ↔ rest.1.taken = (bs.drop n).length := ih.2
    rw [List.length_drop] at hrest hend
    show n + 1 + rest.1.taken ≤ bs.length + 1 ∧
      (rest.1.ending = .complete ↔ n + 1 + rest.1.taken = bs.length + 1)
    rw [hend]
    omega
  | case5 _ _ _ _ _ _ _ _ ih => exact ih
  | _ => exact ⟨Nat.zero_le _, iff_of_false (by simp) (by simp)⟩

theorem push_count (hoffer : device.TakesWhatIsOffered) (bytes : Bytes) (w : World) :
    (device.push bytes w).1.taken ≤ bytes.length ∧
      ((device.push bytes w).1.ending = .complete ↔
        (device.push bytes w).1.taken = bytes.length) :=
  pushLoop_count hoffer _ bytes w

/-- The device has taken the bytes from the front, and no more than there are. -/
theorem pushLoop_taken (hlog : device.Logs log) (hoffer : device.TakesWhatIsOffered) (calls : Nat)
    (bytes : Bytes) (w : World) :
    (device.pushLoop calls bytes w).1.taken ≤ bytes.length ∧
      taken (log (device.pushLoop calls bytes w).2) =
        taken (log w) ++ bytes.take (device.pushLoop calls bytes w).1.taken := by
  obtain ⟨made, hmade, hpushes⟩ := pushLoop_pushes hlog calls bytes w
  refine ⟨(pushLoop_count hoffer calls bytes w).1, ?_⟩
  rw [hmade, taken_append, hpushes.taken_eq]

end Device

namespace Session

variable {World : Type} {log : World → List Exchange}

/-! ### What pushing does to a session -/

/-- Bytes have left the front of what was pending and are counted; nothing else about the session
has changed. A device that keeps a log and takes no more than it is offered has got these bytes. -/
def Sends (log : World → List Exchange) (s : Session World) (w : World) (s' : Session World)
    (w' : World) : Prop :=
  ∃ n, s' = { s with pending := s.pending.drop n, sent := s.sent + n } ∧
    (s.device.Logs log → s.device.TakesWhatIsOffered → n ≤ s.pending.length ∧
      taken (log w') = taken (log w) ++ s.pending.take n)

theorem Sends.of_silent {s : Session World} {w w' : World}
    (h : s.device.Logs log → taken (log w') = taken (log w)) : Sends log s w s w' :=
  ⟨0, rfl, fun hlog _ ↦ ⟨Nat.zero_le _, by rw [h hlog, List.take_zero, List.append_nil]⟩⟩

theorem Sends.refl (s : Session World) (w : World) : Sends log s w s w := .of_silent fun _ ↦ rfl

theorem Sends.trans {s s' s'' : Session World} {w w' w'' : World}
    (hfirst : Sends log s w s' w') (hsecond : Sends log s' w' s'' w'') :
    Sends log s w s'' w'' := by
  obtain ⟨n, rfl, htaken⟩ := hfirst
  obtain ⟨m, rfl, htaken'⟩ := hsecond
  refine ⟨n + m, by rw [← List.drop_drop, ← Nat.add_assoc], fun hlog hoffer ↦ ?_⟩
  obtain ⟨hn, heq⟩ := htaken hlog hoffer
  obtain ⟨hm, heq'⟩ := htaken' hlog hoffer
  rw [List.length_drop] at hm
  refine ⟨by omega, ?_⟩
  rw [heq', heq, List.append_assoc, List.take_add]

/-- Pushing a front part of what is pending sends it, as far as the device takes it. -/
theorem dropSent_sends (s : Session World) (size : Nat) (w : World) :
    Sends log s w (s.dropSent (s.device.push (s.pending.take size) w).1)
      (s.device.push (s.pending.take size) w).2 := by
  refine ⟨_, rfl, fun hlog hoffer ↦ ?_⟩
  obtain ⟨hle, htaken⟩ := Device.pushLoop_taken hlog hoffer _ (s.pending.take size) w
  rw [List.length_take] at hle
  have hsize := Nat.le_trans hle (Nat.min_le_left _ _)
  refine ⟨Nat.le_trans hle (Nat.min_le_right _ _), ?_⟩
  rw [Device.push, htaken, List.take_take, Nat.min_eq_left hsize]

/-- The device answers a flush well or not, and in either case takes no bytes. -/
theorem flushDevice_cases (log : World → List Exchange) (s : Session World) (w : World) :
    ∃ w', (s.device.Logs log → taken (log w') = taken (log w)) ∧
      (s.flushDevice w = ⟨.ok (), s, w'⟩ ∨
        ∃ e, s.flushDevice w = ⟨.error e, s, w'⟩ ∧
          (s.device.Logs log → flushFailed (log w') = true)) := by
  have htaken : s.device.Logs log →
      taken (log (s.device.perform .flush w).2) = taken (log w) :=
    fun hlog ↦ (hlog.taken_perform .flush w).trans (List.append_nil _)
  have hfailed := fun hlog : s.device.Logs log ↦ hlog.flushFailed_perform .flush w
  rw [Device.exchange] at hfailed
  unfold flushDevice
  rcases hanswer : s.device.perform .flush w with ⟨e | _, w'⟩ <;> rw [hanswer] at htaken hfailed
  · exact ⟨w', htaken, .inr ⟨.ofDevice e, rfl, fun hlog ↦ (hfailed hlog).trans (Bool.or_true _)⟩⟩
  · exact ⟨w', htaken, .inl rfl⟩

theorem flushDevice_session (s : Session World) (w : World) :
    (s.flushDevice w).session = s := by
  obtain ⟨w', -, hok | ⟨e, herror, -⟩⟩ := flushDevice_cases (fun _ ↦ []) s w
  · rw [hok]
  · rw [herror]

theorem flushDevice_sends (s : Session World) (w : World) :
    Sends log s w (s.flushDevice w).session (s.flushDevice w).world := by
  obtain ⟨w', hsilent, hok | ⟨e, herror, -⟩⟩ := flushDevice_cases log s w
  · rw [hok]
    exact .of_silent hsilent
  · rw [herror]
    exact .of_silent hsilent

/-- A flush goes by the ending of its push. With nothing pending the push is complete at once. -/
theorem flush_of_push {s : Session World} {w w' : World} {push : Push}
    (hpush : s.device.push s.pending w = (push, w')) :
    s.flush w = match push.ending with
      | .complete => (s.dropSent push).flushDevice w'
      | .stalled => ⟨.error .timeout, s.dropSent push, w'⟩
      | .failed e => ⟨.error (if push.taken = 0 then .io e else .timeout), s.dropSent push, w'⟩
      | .unfinished => ⟨.halt .unfinished, s.dropSent push, w'⟩ := by
  unfold flush
  cases hpending : s.pending with
  | nil =>
    rw [hpending, Device.push, Device.pushLoop] at hpush
    cases hpush
    rfl
  | cons b bs =>
    rw [hpending] at hpush
    cases hending : push.ending <;> simp only [hpush, hending]

theorem flush_sends (s : Session World) (w : World) :
    Sends log s w (s.flush w).session (s.flush w).world := by
  have hsends : Sends log s w _ _ := s.dropSent_sends s.pending.length w
  rw [List.take_length] at hsends
  rcases hpush : s.device.push s.pending w with ⟨⟨n, ending⟩, w'⟩
  rw [hpush] at hsends
  rw [flush_of_push hpush]
  cases ending with
  | complete => exact hsends.trans (flushDevice_sends _ w')
  | _ => exact hsends

/-- By induction on the buffers that may yet go out: each of them sends a front part of what is
pending. -/
theorem drainLoop_sends (buffers : Nat) (s : Session World) (w : World) :
    Sends log s w (drainLoop buffers s w).session (drainLoop buffers s w).world := by
  induction buffers generalizing s w with
  | zero => exact .refl s w
  | succ buffers ih =>
    unfold drainLoop
    split
    · exact .refl s w
    · have hpush : Sends log s w _ _ := s.dropSent_sends s.settings.writeBufferSize w
      simp only
      cases (s.device.push (s.pending.take s.settings.writeBufferSize) w).1.ending with
      | complete => exact hpush.trans (ih _ _)
      | _ => exact hpush

theorem drain_eq_drainLoop {s : Session World} (hmode : s.settings.writeMode = .flushWhenFull)
    (w : World) : s.drain w = drainLoop (s.pending.length + 1) s w := by
  rw [drain, hmode]

theorem drain_sends (s : Session World) (w : World) :
    Sends log s w (s.drain w).session (s.drain w).world := by
  unfold drain
  cases s.settings.writeMode with
  | flushOnAccess => exact .refl s w
  | flushWhenFull => exact s.drainLoop_sends _ w

/-- A flush that succeeds leaves nothing pending. -/
theorem pending_eq_nil_of_flush_ok {s : Session World} {w : World}
    (h : (s.flush w).outcome = .ok ()) : (s.flush w).session.pending = [] := by
  have hcomplete : (s.device.push s.pending w).1.ending = .complete →
      s.pending.length ≤ (s.device.push s.pending w).1.taken :=
    s.device.length_le_of_pushLoop_complete _ s.pending w
  rcases hpush : s.device.push s.pending w with ⟨⟨n, ending⟩, w'⟩
  rw [hpush] at hcomplete
  rw [flush_of_push hpush] at h ⊢
  cases ending with
  | complete =>
    rw [flushDevice_session]
    exact List.drop_eq_nil_iff.mpr (hcomplete rfl)
  | stalled | failed e | unfinished => cases h

/-! ### Writing -/

/-- Cutting off the end of the data that was not sent leaves what there would be if only the bytes
that were sent had been taken in. The number of these bytes is computed from how much is left. -/
theorem cutUnsent_sends {s t : Session World} {data : Bytes} {w w' : World} {accepted : Nat}
    (h : Sends log (s.buffer data) w t w')
    (haccepted : accepted =
      s.pending.length + data.length - t.pending.length - s.pending.length) :
    Sends log (s.buffer (data.take accepted)) w
      { t with pending := t.pending.take (t.pending.length - (data.length - accepted)) } w' := by
  obtain ⟨n, rfl, htaken⟩ := h
  have hleft : ((s.pending ++ data).drop n).length = s.pending.length + data.length - n := by
    rw [List.length_drop, List.length_append]
  change accepted = s.pending.length + data.length - ((s.pending ++ data).drop n).length -
    s.pending.length at haccepted
  rw [hleft] at haccepted
  have hkept : ((s.pending ++ data).drop n).take
      (((s.pending ++ data).drop n).length - (data.length - accepted)) =
        (s.pending ++ data.take accepted).drop n := by
    rw [hleft, List.drop_append, List.drop_append]
    rcases Nat.lt_or_ge n s.pending.length with hold | hnew
    · have hcut : s.pending.length + data.length - n - (data.length - accepted) =
          (s.pending.drop n).length := by
        rw [List.length_drop]
        omega
      have hnone : accepted = 0 := by omega
      rw [hcut, List.take_left, hnone, List.take_zero, List.drop_nil, List.append_nil]
    · have hcut : s.pending.length + data.length - n - (data.length - accepted) = 0 := by omega
      have hsent : (data.take accepted).length ≤ n - s.pending.length := by
        rw [List.length_take]
        omega
      rw [hcut, List.take_zero, List.drop_eq_nil_of_le hnew, List.drop_eq_nil_of_le hsent,
        List.append_nil]
  refine ⟨n, congrArg (fun pending ↦ { s with pending, sent := s.sent + n }) hkept,
    fun hlog hoffer ↦ ?_⟩
  obtain ⟨hle, heq⟩ := htaken hlog hoffer
  change n ≤ (s.pending ++ data).length at hle
  change taken (log w') = taken (log w) ++ (s.pending ++ data).take n at heq
  show n ≤ (s.pending ++ data.take accepted).length ∧
    taken (log w') = taken (log w) ++ (s.pending ++ data.take accepted).take n
  rw [List.length_append] at hle
  constructor
  · rw [List.length_append, List.length_take]
    omega
  · rw [heq, List.take_append, List.take_append, List.take_take,
      Nat.min_eq_left (show n - s.pending.length ≤ accepted by omega)]

/-- Writing through, the data goes straight to the device. An error means that nothing was taken,
or everything, and the device has failed to send it. -/
theorem write_through (log : World → List Exchange) {s : Session World}
    (hmode : s.settings.writeMode = .flushOnAccess) (data : Bytes) (w : World) :
    ∃ n, (s.write data w).session = { s with sent := s.sent + n } ∧
      (s.device.Logs log → s.device.TakesWhatIsOffered → n ≤ data.length ∧
        taken (log (s.write data w).world) = taken (log w) ++ data.take n) ∧
      ((s.write data w).outcome = .ok n ∨
        (∃ e, (s.write data w).outcome = .error e ∧ (n = 0 ∨ data.length ≤ n ∧
          (s.device.Logs log → flushFailed (log (s.write data w).world) = true))) ∨
        ∃ h, (s.write data w).outcome = .halt h) := by
  have htaken : s.device.Logs log → s.device.TakesWhatIsOffered →
      (s.device.push data w).1.taken ≤ data.length ∧ taken (log (s.device.push data w).2) =
        taken (log w) ++ data.take (s.device.push data w).1.taken :=
    fun hlog hoffer ↦ Device.pushLoop_taken hlog hoffer _ data w
  have hcomplete : (s.device.push data w).1.ending = .complete →
      data.length ≤ (s.device.push data w).1.taken :=
    s.device.length_le_of_pushLoop_complete _ data w
  refine ⟨(s.device.push data w).1.taken, ?_⟩
  unfold write
  simp only [hmode]
  cases hending : (s.device.push data w).1.ending with
  | complete =>
    obtain ⟨w', hsilent, hok | ⟨e, herror, hfailed⟩⟩ := flushDevice_cases log
      (s.countSent (s.device.push data w).1) (s.device.push data w).2
    · simp only [hok]
      refine ⟨rfl, fun hlog hoffer ↦ ?_, .inl trivial⟩
      rw [hsilent hlog]
      exact htaken hlog hoffer
    · simp only [herror]
      refine ⟨rfl, fun hlog hoffer ↦ ?_, .inr (.inl ⟨e, rfl, .inr ⟨hcomplete hending, hfailed⟩⟩)⟩
      rw [hsilent hlog]
      exact htaken hlog hoffer
  | stalled => exact ⟨rfl, htaken, .inl rfl⟩
  | failed e =>
    simp only
    by_cases hnone : (s.device.push data w).1.taken = 0
    · rw [if_pos hnone]
      exact ⟨rfl, htaken, .inr (.inl ⟨_, rfl, .inl hnone⟩)⟩
    · rw [if_neg hnone]
      exact ⟨rfl, htaken, .inl rfl⟩
  | unfinished => exact ⟨rfl, htaken, .inr (.inr ⟨_, rfl⟩)⟩

section

variable {s t : Session World} {data : Bytes} {w w' : World}
  (hmode : s.settings.writeMode = .flushWhenFull)
include hmode

/-- A drain that ends well is a write that keeps all of its data. -/
theorem write_of_drain_ok (hdrain : (s.buffer data).drain w = ⟨.ok (), t, w'⟩) :
    s.write data w = ⟨.ok data.length, t, w'⟩ := by
  unfold write
  simp only [hmode, hdrain]

/-- A drain that fails is a write that keeps only the data that was sent, if any was. -/
theorem write_of_drain_error {e : SerialError} {accepted : Nat}
    (hdrain : (s.buffer data).drain w = ⟨.error e, t, w'⟩)
    (haccepted : s.pending.length + data.length - t.pending.length - s.pending.length = accepted) :
    s.write data w = ⟨if accepted = 0 then .error e else .ok accepted,
      { t with pending := t.pending.take (t.pending.length - (data.length - accepted)) }, w'⟩ := by
  unfold write
  simp only [hmode, hdrain, haccepted]

/-- A drain that does not return is a write that does not either. -/
theorem write_of_drain_halt {reason : Halt}
    (hdrain : (s.buffer data).drain w = ⟨.halt reason, t, w'⟩) :
    s.write data w = ⟨.halt reason, t, w'⟩ := by
  unfold write
  simp only [hmode, hdrain]

theorem write_world (data : Bytes) (w : World) :
    (s.write data w).world = ((s.buffer data).drain w).world := by
  rcases hdrain : (s.buffer data).drain w with ⟨_ | e | reason, t, w'⟩
  · rw [write_of_drain_ok hmode hdrain]
  · rw [write_of_drain_error hmode hdrain rfl]
  · rw [write_of_drain_halt hmode hdrain]

end

/-- Buffering, a write comes to the same as taking in the accepted part of the data and sending from
there. Nothing is accepted when there is an error, and everything when the device keeps the session
busy. -/
theorem write_buffered (log : World → List Exchange) {s : Session World}
    (hmode : s.settings.writeMode = .flushWhenFull) (data : Bytes) (w : World) :
    ∃ n, Sends log (s.buffer (data.take n)) w (s.write data w).session (s.write data w).world ∧
      ((s.write data w).outcome = .ok n ∨ (∃ e, (s.write data w).outcome = .error e ∧ n = 0) ∨
        ∃ h, (s.write data w).outcome = .halt h ∧ n = data.length) := by
  have hall : Sends log (s.buffer (data.take data.length)) w _ _ :=
    (s.buffer (data.take data.length)).drain_sends w
  rw [List.take_length] at hall
  rcases hdrained : (s.buffer data).drain w with ⟨outcome, t, w'⟩
  rw [hdrained] at hall
  cases outcome with
  | ok _ =>
    rw [write_of_drain_ok hmode hdrained]
    refine ⟨data.length, ?_, .inl rfl⟩
    rw [List.take_length]
    exact hall
  | halt h =>
    rw [write_of_drain_halt hmode hdrained]
    refine ⟨data.length, ?_, .inr (.inr ⟨h, rfl, rfl⟩)⟩
    rw [List.take_length]
    exact hall
  | error e =>
    rw [write_of_drain_error hmode hdrained rfl]
    refine ⟨_, cutUnsent_sends hall rfl, ?_⟩
    by_cases hnone :
        s.pending.length + data.length - t.pending.length - s.pending.length = 0
    · exact .inr (.inl ⟨e, if_pos hnone, hnone⟩)
    · exact .inl (if_neg hnone)

/-- A write touches nothing but the pending bytes and the count of those that were sent. -/
theorem write_session (s : Session World) (data : Bytes) (w : World) :
    ∃ pending sent, (s.write data w).session = { s with pending, sent } := by
  cases hmode : s.settings.writeMode with
  | flushOnAccess =>
    obtain ⟨n, hsession, -⟩ := write_through (fun _ ↦ []) hmode data w
    exact ⟨s.pending, s.sent + n, hsession⟩
  | flushWhenFull =>
    obtain ⟨n, ⟨m, hsession, -⟩, -⟩ := write_buffered (fun _ ↦ []) hmode data w
    exact ⟨(s.pending ++ data.take n).drop m, s.sent + m, hsession⟩

end Session

end SerialLine
