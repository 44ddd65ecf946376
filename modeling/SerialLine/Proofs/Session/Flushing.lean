import SerialLine.Proofs.Session.Faults
/-!
# What a flush tells

A flush pushes what is pending and then has the device send what it holds. `Flushes` lists the
exchanges that this can come to together with the outcome, with one constructor for each way to end,
and `Session.flush_flushes` shows that every flush is among them.

The outcome is meant to tell a device that is slow from one that fails. It does not always:
`flush_outcome` says that a fault is the error of the flush only if the device has taken nothing
before. Once the device has taken a byte, the fault is reported as a timeout, as a stall would be,
and `late_fault_is_timeout` is a flush that ends so. Whatever it is that keeps a flush from
succeeding, the bytes that the device has not taken are pending afterwards.
-/

set_option autoImplicit false

namespace SerialLine

/-- Flushing some bytes, a list of exchanges has led to the count of those that were sent and to the
outcome. -/
inductive Flushes : Bytes → List Exchange → Nat → Outcome Unit → Prop
  | sent {bytes : Bytes} {made : List Exchange} {n : Nat}
      (hpushes : Pushes bytes made ⟨n, .complete⟩) :
      Flushes bytes (made ++ [⟨.flush, .ok ()⟩]) n (.ok ())
  | unsent {bytes : Bytes} {made : List Exchange} {n : Nat} (e : IoError)
      (hpushes : Pushes bytes made ⟨n, .complete⟩) :
      Flushes bytes (made ++ [⟨.flush, .error e⟩]) n (.error (.ofDevice e))
  | stalled {bytes : Bytes} {made : List Exchange} {n : Nat}
      (hpushes : Pushes bytes made ⟨n, .stalled⟩) : Flushes bytes made n (.error .timeout)
  | failed {bytes : Bytes} {made : List Exchange} {n : Nat} {e : IoError}
      (hpushes : Pushes bytes made ⟨n, .failed e⟩) :
      Flushes bytes made n (.error (if n = 0 then .io e else .timeout))
  | unfinished {bytes : Bytes} {made : List Exchange} {n : Nat}
      (hpushes : Pushes bytes made ⟨n, .unfinished⟩) : Flushes bytes made n (.halt .unfinished)

/-- Only a device that did not answer in time is a timeout. -/
theorem SerialError.ofDevice_eq_timeout_iff {e : IoError} :
    ofDevice e = .timeout ↔ e.kind = .timedOut := by
  unfold ofDevice
  cases e.kind <;> simp

@[simp] theorem writeStalled_flush (answer : Except IoError Unit) :
    writeStalled [⟨.flush, answer⟩] = false := rfl

@[simp] theorem faults_flush (answer : Except IoError Unit) :
    faults [⟨.flush, answer⟩] = [] := rfl

/-- A push does not ask the device to send what it holds. -/
theorem Pushes.not_mem_flush {bytes : Bytes} {made : List Exchange} {push : Push}
    (h : Pushes bytes made push) (answer : Except IoError Unit) : ⟨.flush, answer⟩ ∉ made := by
  intro hx
  obtain ⟨offered, hcall, -⟩ := h.offers _ hx
  cases hcall

namespace Flushes

variable {bytes : Bytes} {made : List Exchange} {n : Nat} {outcome : Outcome Unit}

/-- The device has taken what is counted. -/
theorem taken_eq (h : Flushes bytes made n outcome) : taken made = bytes.take n := by
  cases h with
  | sent hpushes | unsent _ hpushes =>
    rw [taken_append, hpushes.taken_eq]
    exact List.append_nil _
  | stalled hpushes | failed hpushes | unfinished hpushes => exact hpushes.taken_eq

/-- A fault is the error of a flush if the device has taken nothing before it, and is reported as a
timeout if it has. -/
theorem outcome_of_mem_faults (h : Flushes bytes made n outcome) {e : IoError}
    (hfault : e ∈ faults made) :
    outcome = .error (if taken made = [] then .io e else .timeout) := by
  cases h with
  | sent hpushes | unsent _ hpushes =>
    rw [faults_append, hpushes.faults_eq] at hfault
    cases hfault
  | stalled hpushes | unfinished hpushes =>
    rw [hpushes.faults_eq] at hfault
    cases hfault
  | failed hpushes =>
    rw [hpushes.faults_eq, Ending.faults, List.mem_singleton] at hfault
    rw [hfault]
    simp only [hpushes.taken_eq_nil_iff]

/-- A flush times out if a write finds the device slow, if the device does not send in time what it
holds, or if a fault comes after a byte was taken. -/
theorem timeout_iff (h : Flushes bytes made n outcome) :
    outcome = .error .timeout ↔ writeStalled made = true ∨
      (∃ e, ⟨.flush, .error e⟩ ∈ made ∧ e.kind = .timedOut) ∨ faults made ≠ [] ∧ taken made ≠ [] := by
  cases h with
  | sent hpushes =>
    simp [hpushes.writeStalled_iff, hpushes.faults_eq, hpushes.not_mem_flush, Ending.faults]
  | unsent e hpushes =>
    simp [hpushes.writeStalled_iff, hpushes.faults_eq, hpushes.not_mem_flush, Ending.faults,
      SerialError.ofDevice_eq_timeout_iff]
  | stalled hpushes => exact iff_of_true rfl (.inl (hpushes.writeStalled_iff.mpr rfl))
  | failed hpushes =>
    simp [hpushes.writeStalled_iff, hpushes.faults_eq, hpushes.not_mem_flush, Ending.faults,
      hpushes.taken_eq_nil_iff]
  | unfinished hpushes =>
    simp [hpushes.writeStalled_iff, hpushes.faults_eq, hpushes.not_mem_flush, Ending.faults]

end Flushes

namespace Session

variable {World : Type} {log : World → List Exchange}

/-- Having the device send what it holds after a complete push. -/
theorem flushDevice_flushes {s : Session World} (hlog : s.device.Logs log) {bytes : Bytes}
    {made : List Exchange} {n : Nat} (hpushes : Pushes bytes made ⟨n, .complete⟩) (w : World) :
    ∃ answer, log (s.flushDevice w).world = log w ++ [answer] ∧
      Flushes bytes (made ++ [answer]) n (s.flushDevice w).outcome := by
  refine ⟨s.device.exchange .flush w, ?_⟩
  have hcall := hlog .flush w
  unfold flushDevice
  unfold Device.exchange at hcall ⊢
  rcases hanswer : s.device.perform .flush w with ⟨e | _, w'⟩ <;> rw [hanswer] at hcall
  · exact ⟨hcall, .unsent e hpushes⟩
  · exact ⟨hcall, .sent hpushes⟩

theorem flush_flushes_of_logs {s : Session World} (hlog : s.device.Logs log) (w : World) :
    ∃ made n, log (s.flush w).world = log w ++ made ∧
      Flushes s.pending made n (s.flush w).outcome ∧
      (s.flush w).session = { s with pending := s.pending.drop n, sent := s.sent + n } := by
  obtain ⟨made, hmade, hpushes⟩ := Device.push_pushes hlog s.pending w
  rcases hpush : s.device.push s.pending w with ⟨⟨n, ending⟩, w'⟩
  rw [hpush] at hmade hpushes
  rw [flush_of_push hpush]
  cases ending with
  | complete =>
    obtain ⟨answer, hanswer, hflushes⟩ :=
      flushDevice_flushes (s := s.dropSent ⟨n, .complete⟩) hlog hpushes w'
    refine ⟨made ++ [answer], n, ?_, hflushes, flushDevice_session _ w'⟩
    exact hanswer.trans (by rw [hmade, List.append_assoc])
  | stalled => exact ⟨made, n, hmade, .stalled hpushes, rfl⟩
  | failed e => exact ⟨made, n, hmade, .failed hpushes, rfl⟩
  | unfinished => exact ⟨made, n, hmade, .unfinished hpushes, rfl⟩

/-- Every flush is among those that are listed, and takes what was sent from the front of what is
pending. -/
theorem flush_flushes (s : Session World) (w : World) :
    ∃ n, Flushes s.pending (s.exchanges w .flush) n (s.flush w).outcome ∧
      (s.flush w).session = { s with pending := s.pending.drop n, sent := s.sent + n } := by
  obtain ⟨made, n, hmade, hflushes, hsession⟩ :=
    flush_flushes_of_logs (s := s.recorded) s.device.recorded_logs (w, [])
  have hrecorded : s.recorded.flush (w, []) = _ := s.perform_recorded w .flush
  rw [hrecorded] at hmade hflushes hsession
  obtain rfl : s.exchanges w .flush = made := hmade
  obtain ⟨m, hsends, -⟩ : Sends (fun _ ↦ []) s w _ _ := s.flush_sends w
  have hcount : m = n := by
    have hsent := congrArg Session.sent hsession
    change (s.flush w).session.sent = s.sent + n at hsent
    rw [hsends] at hsent
    exact Nat.add_left_cancel hsent
  exact ⟨n, hflushes, hcount ▸ hsends⟩

/-- A flush times out exactly if a write finds the device slow, if the device does not send in time
what it holds, or if a write meets a fault after the device has taken some of the bytes. A fault
that a write meets is the error of the flush if the device has taken nothing before it, and a
timeout otherwise. What the device has not taken is pending afterwards, whatever the flush comes
to. -/
theorem flush_outcome (s : Session World) (w : World) :
    let made := s.exchanges w .flush
    let done := s.flush w
    (done.outcome = .error .timeout ↔ writeStalled made = true ∨
      (∃ e, ⟨.flush, .error e⟩ ∈ made ∧ e.kind = .timedOut) ∨
      faults made ≠ [] ∧ taken made ≠ []) ∧
    (∀ offered e, ⟨.write offered, .error e⟩ ∈ made → e.IsFault →
      done.outcome = .error (if taken made = [] then .io e else .timeout)) ∧
    taken made ++ done.session.pending = s.pending := by
  intro made done
  obtain ⟨n, hflushes, hsession⟩ := s.flush_flushes w
  refine ⟨hflushes.timeout_iff, fun offered e hwrite hfault ↦ ?_, ?_⟩
  · exact hflushes.outcome_of_mem_faults (mem_faults_iff.mpr ⟨hfault, offered, hwrite⟩)
  · show taken made ++ (s.flush w).session.pending = s.pending
    rw [hsession, hflushes.taken_eq]
    exact List.take_append_drop n s.pending

/-- The device takes two of four bytes and fails then. The flush reports that it has timed out, and
the fault is lost. -/
theorem late_fault_is_timeout :
    let s : Session Script :=
      { port := .onboard
        device := Script.device
        settings := { writeMode := .flushWhenFull }
        pending := [97, 98, 99, 100] }
    let w : Script := { writes := [.takes 2, .fails ⟨.io .brokenPipe, "scripted BrokenPipe"⟩] }
    let done := s.flush w
    faults (s.exchanges w .flush) = [⟨.brokenPipe, "scripted BrokenPipe"⟩] ∧
      writeStalled (s.exchanges w .flush) = false ∧ flushFailed (s.exchanges w .flush) = false ∧
      done.outcome = .error .timeout ∧
      done.outcome ≠ .error (.io ⟨.brokenPipe, "scripted BrokenPipe"⟩) ∧
      taken (s.exchanges w .flush) = [97, 98] ∧ done.session.pending = [99, 100] := by
  decide

end Session

end SerialLine
