import SerialLine.Proofs.Registry.Slots
import SerialLine.Proofs.Session.Flushing
/-!
# Closing a session

Closing flushes what is pending and gives up on what a flush has not sent: it drops these bytes and
has the device drop what it still holds. `Closes` lists the exchanges that this can come to with the
outcome, and `Session.close_closes_of_logs` shows that every closing is among them.

`Session.ClosesOut` is what a caller can rely on. The session is closed with nothing pending; the
device has taken a front part of what was pending, and all of it unless a write found the device
slow or met a fault; and the output that the device holds is dropped once if it was not delivered
(`Undelivered`) and not at all if it was. `closes_out` shows this of every session over every
device, also of one that fails to drop its output.
-/

set_option autoImplicit false

namespace SerialLine

/-- Output did not get through: a write found the device slow or met a fault, or the device has
failed to send what it holds. -/
def Undelivered (log : List Exchange) : Prop :=
  writeStalled log = true ∨ faults log ≠ [] ∨ flushFailed log = true

instance (log : List Exchange) : Decidable (Undelivered log) :=
  inferInstanceAs (Decidable (_ ∨ _ ∨ _))

/-- How often the device was asked to drop the output that it holds. -/
def outputClears (log : List Exchange) : Nat := log.countP fun x ↦ x.call = .clearOutput

/-- Asking the device to drop its output delivers none of it and is no failure to deliver, whatever
the device answers. -/
theorem undelivered_append_clear (log : List Exchange) (answer : Except IoError Unit) :
    Undelivered (log ++ [⟨.clearOutput, answer⟩]) ↔ Undelivered log := by
  have hstalled : writeStalled [⟨.clearOutput, answer⟩] = false := rfl
  have hfaults : faults [⟨.clearOutput, answer⟩] = [] := rfl
  have hfailed : flushFailed [⟨.clearOutput, answer⟩] = false := rfl
  simp [Undelivered, hstalled, hfaults, hfailed]

/-- A push does not ask the device to send what it holds. -/
theorem Pushes.flushFailed_eq {bytes : Bytes} {made : List Exchange} {push : Push}
    (h : Pushes bytes made push) : flushFailed made = false := by
  refine List.any_eq_false.mpr fun x hx ↦ ?_
  obtain ⟨call, answer⟩ := x
  obtain ⟨offered, rfl, -⟩ := h.offers _ hx
  simp [Exchange.isFailedFlush]

namespace Flushes

variable {bytes : Bytes} {made : List Exchange} {n : Nat} {outcome : Outcome Unit}

/-- A flush that returns has sent all bytes unless a write found the device slow or met a fault. -/
theorem taken_all (h : Flushes bytes made n outcome) (hreturns : ∀ reason, outcome ≠ .halt reason)
    (hstalled : writeStalled made = false) (hfaults : faults made = []) : taken made = bytes := by
  have htaken := h.taken_eq
  cases h with
  | sent hpushes | unsent _ hpushes =>
    rw [htaken, List.take_of_length_le (hpushes.length_le rfl)]
  | stalled hpushes =>
    rw [hpushes.writeStalled_iff.mpr rfl] at hstalled
    cases hstalled
  | failed hpushes =>
    rw [hpushes.faults_eq] at hfaults
    cases hfaults
  | unfinished => exact absurd rfl (hreturns .unfinished)

/-- A flush fails exactly if output did not get through. -/
theorem error_iff (h : Flushes bytes made n outcome) :
    (∃ e, outcome = .error e) ↔ Undelivered made := by
  unfold Undelivered
  cases h with
  | sent hpushes =>
    simp [hpushes.writeStalled_iff, hpushes.faults_eq, hpushes.flushFailed_eq, Ending.faults,
      Exchange.isFailedFlush]
  | unsent e hpushes => simp [Exchange.isFailedFlush]
  | stalled hpushes => simp [hpushes.writeStalled_iff]
  | failed hpushes => simp [hpushes.faults_eq, Ending.faults]
  | unfinished hpushes =>
    simp [hpushes.writeStalled_iff, hpushes.faults_eq, hpushes.flushFailed_eq, Ending.faults]

/-- A flush drops nothing. -/
theorem outputClears_eq (h : Flushes bytes made n outcome) : outputClears made = 0 := by
  have hpush : ∀ {pushed push}, Pushes bytes pushed push → outputClears pushed = 0 := by
    intro pushed push hpushes
    refine List.countP_eq_zero.mpr fun x hx ↦ ?_
    obtain ⟨offered, hcall, -⟩ := hpushes.offers x hx
    simp [hcall]
  cases h with
  | sent hpushes | unsent _ hpushes =>
    rw [outputClears, List.countP_append]
    exact Nat.add_eq_zero_iff.mpr ⟨hpush hpushes, rfl⟩
  | stalled hpushes | failed hpushes | unfinished hpushes => exact hpush hpushes

end Flushes

/-- Closing with some bytes pending, a list of exchanges has led to the outcome. -/
inductive Closes : Bytes → List Exchange → Outcome Unit → Prop
  | nothing : Closes [] [] (.ok ())
  | sent {bytes : Bytes} {made : List Exchange} {n : Nat} (hpending : bytes ≠ [])
      (hflushes : Flushes bytes made n (.ok ())) : Closes bytes made (.ok ())
  | dropped {bytes : Bytes} {made : List Exchange} {n : Nat} {e : SerialError}
      (hpending : bytes ≠ []) (hflushes : Flushes bytes made n (.error e))
      (answer : Except IoError Unit) : Closes bytes (made ++ [⟨.clearOutput, answer⟩]) (.ok ())
  | unfinished {bytes : Bytes} {made : List Exchange} {n : Nat} {reason : Halt}
      (hpending : bytes ≠ []) (hflushes : Flushes bytes made n (.halt reason)) :
      Closes bytes made (.halt reason)

namespace Closes

variable {bytes : Bytes} {made : List Exchange} {outcome : Outcome Unit}

/-- The device has taken a front part of the bytes. -/
theorem taken_front (h : Closes bytes made outcome) : taken made <+: bytes := by
  cases h with
  | nothing => exact List.prefix_rfl
  | sent _ hflushes | unfinished _ hflushes =>
    rw [hflushes.taken_eq]
    exact List.take_prefix _ bytes
  | dropped _ hflushes answer =>
    rw [taken_append, hflushes.taken_eq]
    exact (List.append_nil (bytes.take _)).symm ▸ List.take_prefix _ bytes

/-- All bytes are taken unless a write found the device slow or met a fault. -/
theorem taken_all (h : Closes bytes made outcome) (hok : outcome = .ok ())
    (hstalled : writeStalled made = false) (hfaults : faults made = []) : taken made = bytes := by
  cases h with
  | nothing => rfl
  | sent _ hflushes => exact hflushes.taken_all (by simp) hstalled hfaults
  | dropped _ hflushes answer =>
    rw [writeStalled_append, Bool.or_eq_false_iff] at hstalled
    rw [faults_append, List.append_eq_nil_iff] at hfaults
    rw [taken_append, hflushes.taken_all (by simp) hstalled.1 hfaults.1]
    exact List.append_nil bytes
  | unfinished => cases hok

/-- With nothing to send, nothing is asked of the device. -/
theorem silent (h : Closes bytes made outcome) (hnothing : bytes = []) : made = [] := by
  cases h with
  | nothing => rfl
  | sent hpending | dropped hpending | unfinished hpending => exact absurd hnothing hpending

/-- Output that the device holds is dropped once if it was not delivered, and not at all if it
was. -/
theorem outputClears_eq (h : Closes bytes made outcome) (hok : outcome = .ok ()) :
    outputClears made = if Undelivered made then 1 else 0 := by
  cases h with
  | nothing => rfl
  | sent _ hflushes =>
    have hdelivered : ¬ Undelivered made := fun hfailed ↦ by
      obtain ⟨e, herror⟩ := hflushes.error_iff.mpr hfailed
      cases herror
    rw [if_neg hdelivered, hflushes.outputClears_eq]
  | dropped _ hflushes answer =>
    rw [if_pos ((undelivered_append_clear _ answer).mpr (hflushes.error_iff.mp ⟨_, rfl⟩)),
      outputClears, List.countP_append]
    exact congrArg (· + 1) hflushes.outputClears_eq
  | unfinished => cases hok

end Closes

namespace Session

variable {World : Type} {log : World → List Exchange}

theorem close_closes_of_logs {s : Session World} (hlog : s.device.Logs log) (w : World) :
    ∃ made, log (s.close w).world = log w ++ made ∧ Closes s.pending made (s.close w).outcome ∧
      ((s.close w).outcome = .ok () →
        (s.close w).session.closed = true ∧ (s.close w).session.pending = []) := by
  obtain ⟨made, n, hmade, hflushes, hsession⟩ := flush_flushes_of_logs hlog w
  have hsent := s.pending_eq_nil_of_flush_ok (w := w)
  unfold close
  cases hpending : s.pending with
  | nil => exact ⟨[], (List.append_nil _).symm, .nothing, fun _ ↦ ⟨rfl, hpending⟩⟩
  | cons b bs =>
    have hne := List.cons_ne_nil b bs
    rw [hpending] at hflushes
    simp only
    rcases hflush : s.flush w with ⟨_ | e | reason, t, w'⟩ <;>
      rw [hflush] at hmade hflushes hsession hsent
    · exact ⟨made, hmade, .sent hne hflushes, fun _ ↦ ⟨rfl, hsent rfl⟩⟩
    · obtain rfl : t = _ := hsession
      refine ⟨made ++ [s.device.exchange .clearOutput w'], ?_, .dropped hne hflushes _,
        fun _ ↦ ⟨rfl, rfl⟩⟩
      rw [← List.append_assoc, ← hmade]
      exact hlog .clearOutput w'
    · exact ⟨made, hmade, .unfinished hne hflushes, by simp⟩

/-- The exchanges between session and device that closing brings about, in order. -/
def closing (s : Session World) (w : World) : List Exchange :=
  (s.recorded.close (w, [])).world.2

/-- Recording changes nothing, and the exchanges lead from the world before to the world after. -/
theorem close_recorded (s : Session World) (w : World) :
    s.recorded.close (w, []) = ⟨(s.close w).outcome, (s.close w).session.recorded,
      (s.close w).world, s.closing w⟩ ∧ s.device.Follows w (s.closing w) (s.close w).world := by
  obtain ⟨outcome, t, w', ⟨v, log⟩, hw, hv, hdevice, hworld, hfollows, -⟩ :=
    close_agrees (s := s) (v := (w, []))
      (s.device.recorded_agrees (fun _ ↦ True) w).agreesAfter trivial (fun _ ↦ trivial) trivial
      ⟨rfl, .nil w, fun _ hx ↦ absurd hx List.not_mem_nil⟩
  change s.recorded.close (w, []) = _ at hv
  rw [closing, hw, hv]
  refine ⟨?_, hfollows⟩
  rw [recorded, hdevice, ← hworld]

/-- What closing a session comes to. -/
structure ClosesOut (s : Session World) (w : World) : Prop where
  /-- Over a device that keeps to its patience, closing comes to an end. -/
  returns : s.device.Patient → (s.close w).outcome = .ok ()
  /-- The session is closed and nothing is pending. -/
  closed : (s.close w).outcome = .ok () →
    (s.close w).session.closed = true ∧ (s.close w).session.pending = []
  /-- The exchanges of the closing lead from the world before it to the world after it. -/
  follows : s.device.Follows w (s.closing w) (s.close w).world
  /-- The output of the device grows by a front part of what was pending, in order. -/
  taken_front : taken (s.closing w) <+: s.pending
  taken_all : (s.close w).outcome = .ok () → writeStalled (s.closing w) = false →
    faults (s.closing w) = [] → taken (s.closing w) = s.pending
  /-- The device is asked to drop its output once if that was not delivered, and not at all if it
  was. -/
  outputClears_eq : (s.close w).outcome = .ok () →
    outputClears (s.closing w) = if Undelivered (s.closing w) then 1 else 0
  silent : s.pending = [] → s.closing w = []

theorem closes_out (s : Session World) (w : World) : s.ClosesOut w := by
  obtain ⟨made, hmade, hcloses, hclosed⟩ :=
    close_closes_of_logs (s := s.recorded) s.device.recorded_logs (w, [])
  obtain ⟨hrecorded, hfollows⟩ := s.close_recorded w
  rw [hrecorded] at hmade hcloses hclosed
  obtain rfl : s.closing w = made := hmade
  exact {
    returns := fun hpatient ↦ close_eq_ok hpatient w
    closed := hclosed
    follows := hfollows
    taken_front := hcloses.taken_front
    taken_all := hcloses.taken_all
    outputClears_eq := hcloses.outputClears_eq
    silent := hcloses.silent }

/-- The device takes two of four bytes and fails then, and it fails to drop what it holds. -/
example :
    let s : Session Script :=
      { port := .onboard, device := Script.device, settings := {}, pending := [97, 98, 99, 100] }
    let w : Script :=
      { writes := [.takes 2, .fails ⟨.io .brokenPipe, "gone"⟩]
        calls := [(.clearOutput, .fails ⟨.io .brokenPipe, "gone"⟩)] }
    (s.close w).outcome = .ok () ∧ (s.close w).session.closed = true ∧
      (s.close w).session.pending = [] ∧ taken (s.closing w) = [97, 98] ∧
      outputClears (s.closing w) = 1 := by
  decide

end Session

end SerialLine
