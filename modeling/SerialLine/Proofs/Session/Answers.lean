import SerialLine.Proofs.Session.History
import SerialLine.Proofs.Session.Progress
import SerialLine.Proofs.Session.Setters
/-!
# What operations answer

An operation of a session fails for one of three reasons: its argument is refused, by the session
or by the device, or the device was too slow, or the device has failed (`isOfSession_of_error`). A
read hands out at most the bytes it was asked for, and a write accepts at most the bytes it was
given (`length_le_of_read_ok`, `le_length_of_write_ok`).

`Session.Reliable` is what a session needs for its operations to come to an end and for its counts
to be right. Operations keep it (`Reliable.perform`).
-/

set_option autoImplicit false

namespace SerialLine

variable {World : Type}

/-- An error of an operation of a session. It is not about which ports there are, which of them are
open, or how sessions are configured. -/
def SerialError.IsOfSession (e : SerialError) : Prop :=
  e.kind = .invalidArgument ∨ e.kind = .timeout ∨ e.kind = .io

namespace SerialError

theorem isOfSession_invalidArgument (reason : Refusal) :
    (SerialError.invalidArgument reason).IsOfSession := .inl rfl

theorem isOfSession_timeout : SerialError.timeout.IsOfSession := .inr (.inl rfl)

theorem isOfSession_io (cause : IoError) : (SerialError.io cause).IsOfSession := .inr (.inr rfl)

theorem isOfSession_ofDevice (e : IoError) : (SerialError.ofDevice e).IsOfSession := by
  obtain ⟨cause, text⟩ := e
  unfold ofDevice
  cases cause with
  | unsupported | invalidInput => exact isOfSession_invalidArgument _
  | timedOut => exact isOfSession_timeout
  | _ => exact isOfSession_io _

end SerialError

open SerialError

/-- A device that takes at most what it is offered and keeps to its patience. -/
structure Device.Reliable (device : Device World) : Prop where
  patient : device.Patient
  takesWhatIsOffered : device.TakesWhatIsOffered

namespace Session

variable {s : Session World} {w : World} {e : SerialError}

/-! ### Errors -/

theorem isOfSession_of_flushDevice (h : (s.flushDevice w).outcome = .error e) :
    e.IsOfSession := by
  unfold flushDevice at h
  split at h
  · cases h
  · cases h
    exact isOfSession_ofDevice _

theorem isOfSession_of_flush (h : (s.flush w).outcome = .error e) : e.IsOfSession := by
  rcases hpush : s.device.push s.pending w with ⟨⟨n, ending⟩, w'⟩
  rw [flush_of_push hpush] at h
  cases ending with
  | complete => exact isOfSession_of_flushDevice h
  | stalled =>
    cases h
    exact isOfSession_timeout
  | failed cause =>
    simp only [Outcome.error.injEq] at h
    rw [← h]
    split
    · exact isOfSession_io cause
    · exact isOfSession_timeout
  | unfinished => cases h

/-- By induction on the buffers that may yet go out. -/
theorem isOfSession_of_drainLoop {buffers : Nat}
    (h : (drainLoop buffers s w).outcome = .error e) : e.IsOfSession := by
  induction buffers generalizing s w with
  | zero => cases h
  | succ buffers ih =>
    unfold drainLoop at h
    split at h
    · cases h
    · simp only at h
      cases hending : (s.device.push (s.pending.take s.settings.writeBufferSize) w).1.ending with
      | complete =>
        rw [hending] at h
        exact ih h
      | failed cause =>
        rw [hending] at h
        simp only at h
        split at h
        · cases h
          exact isOfSession_io cause
        · cases h
      | stalled | unfinished =>
        rw [hending] at h
        cases h

theorem isOfSession_of_drain (h : (s.drain w).outcome = .error e) : e.IsOfSession := by
  cases hmode : s.settings.writeMode with
  | flushOnAccess =>
    rw [drain, hmode] at h
    cases h
  | flushWhenFull =>
    rw [drain_eq_drainLoop hmode] at h
    exact isOfSession_of_drainLoop h

theorem isOfSession_of_write {data : Bytes} (h : (s.write data w).outcome = .error e) :
    e.IsOfSession := by
  cases hmode : s.settings.writeMode with
  | flushOnAccess =>
    unfold write at h
    simp only [hmode] at h
    cases hending : (s.device.push data w).1.ending with
    | complete =>
      simp only [hending] at h
      have hflushed := isOfSession_of_flushDevice (s := s.countSent (s.device.push data w).1)
        (w := (s.device.push data w).2) (e := e)
      rcases hflush : (s.countSent (s.device.push data w).1).flushDevice
        (s.device.push data w).2 with ⟨_ | cause | _, t, w'⟩ <;> rw [hflush] at h hflushed
      · cases h
      · cases h
        exact hflushed rfl
      · cases h
    | failed cause =>
      simp only [hending] at h
      split at h
      · cases h
        exact isOfSession_io cause
      · cases h
    | stalled | unfinished =>
      simp only [hending] at h
      cases h
  | flushWhenFull =>
    have hdrained := isOfSession_of_drain (s := s.buffer data) (w := w) (e := e)
    rcases hdrain : (s.buffer data).drain w with ⟨_ | cause | _, t, w'⟩ <;> rw [hdrain] at hdrained
    · rw [write_of_drain_ok hmode hdrain] at h
      cases h
    · rw [write_of_drain_error hmode hdrain rfl] at h
      simp only at h
      split at h
      · cases h
        exact hdrained rfl
      · cases h
    · rw [write_of_drain_halt hmode hdrain] at h
      cases h

theorem isOfSession_of_set {change : Setting} (h : (s.set change w).outcome = .error e) :
    e.IsOfSession := by
  have hconfigured : (s.configure change w).outcome = .error e → e.IsOfSession := by
    intro hfailed
    unfold configure at hfailed
    split at hfailed
    · cases hfailed
    · cases hfailed
      exact isOfSession_ofDevice _
  unfold set at h
  cases change with
  | baudRate rate =>
    simp only at h
    split at h
    · cases h
      exact isOfSession_invalidArgument _
    · exact hconfigured h
  | _ => exact hconfigured h

theorem isOfSession_of_setWriteMode {mode : WriteMode}
    (h : (s.setWriteMode mode w).outcome = .error e) : e.IsOfSession := by
  have hflushed := isOfSession_of_flush (s := s) (w := w) (e := e)
  unfold setWriteMode at h
  simp only at h
  split at h
  · rcases hflush : s.flush w with ⟨_ | cause | _, t, w'⟩ <;> rw [hflush] at h hflushed
    · cases h
    · exact hflushed h
    · cases h
  · cases h

theorem isOfSession_of_fills {wait : Duration} {t : Session World} {v : World}
    (h : Fills s wait w ⟨.error e, t, v⟩) : e.IsOfSession := by
  cases h with
  | refused => exact isOfSession_ofDevice _
  | failed => exact isOfSession_io _

theorem isOfSession_of_gathers {limit : Nat} {t : Session World} {v : World}
    (h : Gathers limit s w ⟨.error e, t, v⟩) : e.IsOfSession := by
  generalize hdone : (⟨.error e, t, v⟩ : Result World Unit) = done at h
  induction h with
  | stopped => cases hdone
  | filled _ _ _ ih => exact ih hdone
  | failed _ fill =>
    cases hdone
    exact isOfSession_of_fills fill

theorem isOfSession_of_read {limit : Nat} (h : (s.read limit w).outcome = .error e) :
    e.IsOfSession := by
  have hends := s.read_ends limit w
  generalize s.read limit w = done at h hends
  cases hends with
  | failed _ gathered =>
    cases h
    exact isOfSession_of_gathers (.of_gatherLoop gathered)
  | _ => cases h

/-- What an operation fails with is an error of the session. -/
theorem isOfSession_of_error {op : Operation} (h : (s.perform w op).outcome = .error e) :
    e.IsOfSession := by
  cases op with
  | set change => exact isOfSession_of_set h
  | setReadBufferSize size =>
    simp only [perform, setReadBufferSize] at h
    split at h
    · cases h
      exact isOfSession_invalidArgument _
    · cases h
  | setWriteBufferSize size =>
    simp only [perform, setWriteBufferSize] at h
    split at h
    · cases h
      exact isOfSession_invalidArgument _
    · exact isOfSession_of_drain h
  | setWriteMode mode => exact isOfSession_of_setWriteMode h
  | enableTermination | disableTermination => cases h
  | bytesAvailable =>
    simp only [perform, bytesAvailable] at h
    split at h
    · cases h
    · cases h
      exact isOfSession_ofDevice _
  | read limit => exact isOfSession_of_read h
  | write data => exact isOfSession_of_write h
  | flush => exact isOfSession_of_flush h
  | clear =>
    simp only [perform, clear] at h
    split at h
    · cases h
    · cases h
      exact isOfSession_ofDevice _
  | discardOutput => cases h

/-! ### Counts -/

theorem length_le_of_read_ok {limit : Nat} {frame : Bytes}
    (h : (s.read limit w).outcome = .ok frame) : frame.length ≤ limit := by
  obtain ⟨t, -, ⟨n, hn, houtcome, -⟩ | ⟨hfailed, -⟩⟩ := s.read_receives (fun _ ↦ []) limit w
  · rw [houtcome] at h
    rw [← Outcome.ok.inj h]
    exact Nat.le_trans (List.length_take_le n _) hn
  · exact absurd h (hfailed frame)

/-- Writing through, the count is that of the device. Buffering, it is how much has left the
session, less what was there before. -/
theorem le_length_of_write_ok (hoffer : s.device.TakesWhatIsOffered) {data : Bytes} {n : Nat}
    (h : (s.write data w).outcome = .ok n) : n ≤ data.length := by
  cases hmode : s.settings.writeMode with
  | flushOnAccess =>
    obtain ⟨m, -, hbound, houtcome⟩ := write_through Prod.snd (s := s.recorded) hmode data (w, [])
    have hrecorded : s.recorded.write data (w, []) = _ := s.perform_recorded w (.write data)
    have hsame : (s.recorded.write data (w, [])).outcome = .ok n := by
      rw [hrecorded]
      exact h
    have hm := (hbound s.device.recorded_logs (Device.recorded_takesWhatIsOffered hoffer)).1
    rw [hsame] at houtcome
    rcases houtcome with hok | ⟨e, herror, -⟩ | ⟨reason, hhalt⟩
    · rw [Outcome.ok.inj hok]
      exact hm
    · cases herror
    · cases hhalt
  | flushWhenFull =>
    rcases hdrain : (s.buffer data).drain w with ⟨_ | _ | _, t, w'⟩
    · rw [write_of_drain_ok hmode hdrain] at h
      cases h
      exact Nat.le_refl _
    · rw [write_of_drain_error hmode hdrain rfl] at h
      simp only at h
      split at h
      · cases h
      · cases h
        omega
    · rw [write_of_drain_halt hmode hdrain] at h
      cases h

/-! ### Reliable sessions -/

/-- A session over a reliable device, with room in its write buffer. -/
structure Reliable (s : Session World) : Prop where
  device : s.device.Reliable
  writeBufferSize_pos : 0 < s.settings.writeBufferSize

/-- A session stays reliable whatever is done with it. -/
theorem Reliable.perform (h : s.Reliable) (w : World) (op : Operation) :
    (s.perform w op).session.Reliable where
  device := by
    rw [s.perform_device w op]
    exact h.device
  writeBufferSize_pos := Session.writeBufferSize_pos h.writeBufferSize_pos w op

end Session

end SerialLine
