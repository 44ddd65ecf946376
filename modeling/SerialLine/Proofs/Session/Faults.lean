import SerialLine.Proofs.Session.Output
/-!
# Writes that meet a fault

A write to a device may fail for another reason than slowness or an interruption. Such a fault ends
the push that makes the write, and a push meets no more than one (`Device.push_faults`).

While whole buffers are pushed, what a fault comes to depends on where it strikes. Between two
buffers it is the error of the drain. Inside of a buffer, after a part of it went out, it counts as
a stall, and the drain ends well (`drainLoop_outcome`). So a buffering write that meets a fault cuts
off the unsent part of its data in the first case and keeps all of it in the second.
`write_of_fault` states both. The device has taken a whole number of buffers in the first case and
not in the second. `fault_within_buffer_keeps_data` is a write of the second kind.
-/

set_option autoImplicit false

namespace SerialLine

namespace Device

variable {World : Type} {device : Device World} {log : World → List Exchange}

/-- A push meets the fault in which it ends and no other. -/
theorem push_faults (hlog : device.Logs log) (bytes : Bytes) (w : World) :
    faults (log (device.push bytes w).2) =
      faults (log w) ++ (device.push bytes w).1.ending.faults := by
  obtain ⟨made, hmade, hpushes⟩ := push_pushes hlog bytes w
  rw [hmade, faults_append, hpushes.faults_eq]

end Device

namespace Session

variable {World : Type} {log : World → List Exchange}

/-- A drain either meets no fault and no error, or it ends with the one fault that it meets. This is
its error exactly if the device has taken a whole number of buffers. By induction on the buffers
that may yet go out. -/
theorem drainLoop_outcome (buffers : Nat) {s : Session World} (hlog : s.device.Logs log)
    (hoffer : s.device.TakesWhatIsOffered) (w : World) :
    let drained := drainLoop buffers s w
    (faults (log drained.world) = faults (log w) ∧ ∀ e, drained.outcome ≠ .error e) ∨
      ∃ e, faults (log drained.world) = faults (log w) ++ [e] ∧
        drained.outcome =
          if s.settings.writeBufferSize ∣ drained.session.sent - s.sent then .error (.io e)
          else .ok () := by
  induction buffers generalizing s w with
  | zero => exact .inl ⟨rfl, fun _ ↦ by simp [drainLoop]⟩
  | succ buffers ih =>
    unfold drainLoop
    split
    · exact .inl ⟨rfl, fun _ ↦ by simp⟩
    · next hwhole =>
      have hfaults := Device.push_faults hlog (s.pending.take s.settings.writeBufferSize) w
      have hcount := Device.push_count hoffer (s.pending.take s.settings.writeBufferSize) w
      rw [List.length_take, Nat.min_eq_left (Nat.le_of_not_lt hwhole)] at hcount
      generalize s.device.push (s.pending.take s.settings.writeBufferSize) w = pushed at *
      obtain ⟨⟨taken, ending⟩, w'⟩ := pushed
      obtain ⟨hle, hall⟩ := hcount
      cases ending with
      | complete =>
        obtain rfl : taken = s.settings.writeBufferSize := hall.mp rfl
        have hsilent : faults (log w') = faults (log w) := hfaults.trans (List.append_nil _)
        obtain ⟨n, hsession, -⟩ : Sends log _ w' _ _ :=
          drainLoop_sends buffers (s.dropSent ⟨s.settings.writeBufferSize, .complete⟩) w'
        have hsent := congrArg Session.sent hsession
        change _ = s.sent + s.settings.writeBufferSize + n at hsent
        obtain ⟨hclean, hok⟩ | ⟨e, hmet, hend⟩ :=
          ih (s := s.dropSent ⟨s.settings.writeBufferSize, .complete⟩) hlog hoffer w'
        · exact .inl ⟨hclean.trans hsilent, hok⟩
        · refine .inr ⟨e, hmet.trans (congrArg (· ++ [e]) hsilent), hend.trans ?_⟩
          show (if s.settings.writeBufferSize ∣
              _ - (s.sent + s.settings.writeBufferSize) then _ else _) = _
          rw [hsent, Nat.add_sub_cancel_left, Nat.add_assoc s.sent, Nat.add_sub_cancel_left]
          simp only [Nat.dvd_add_right (Nat.dvd_refl _)]
      | stalled | unfinished => exact .inl ⟨hfaults.trans (List.append_nil _), fun _ ↦ by simp⟩
      | failed e =>
        have hpart : taken < s.settings.writeBufferSize :=
          Nat.lt_of_le_of_ne hle fun h ↦ by cases hall.mpr h
        refine .inr ⟨e, hfaults, ?_⟩
        have hsent : (s.dropSent ⟨taken, .failed e⟩).sent - s.sent = taken :=
          Nat.add_sub_cancel_left s.sent taken
        have hwhere : s.settings.writeBufferSize ∣ taken ↔ taken = 0 :=
          ⟨fun h ↦ Nat.eq_zero_of_dvd_of_lt h hpart, fun h ↦ h ▸ Nat.dvd_zero _⟩
        simp only [hsent, hwhere]

/-- A drain that meets a fault has sent a front part of what was pending. -/
theorem drain_of_mem_faults {s : Session World} (hlog : s.device.Logs log)
    (hoffer : s.device.TakesWhatIsOffered) (hmode : s.settings.writeMode = .flushWhenFull)
    {w : World} (hclean : faults (log w) = []) {e : IoError}
    (hfault : e ∈ faults (log (s.drain w).world)) :
    ∃ n ≤ s.pending.length,
      taken (log (s.drain w).world) = taken (log w) ++ s.pending.take n ∧
      s.drain w = ⟨if s.settings.writeBufferSize ∣ n then .error (.io e) else .ok (),
        { s with pending := s.pending.drop n, sent := s.sent + n }, (s.drain w).world⟩ := by
  have hends := drainLoop_outcome (s.pending.length + 1) hlog hoffer w
  obtain ⟨n, hsession, hsends⟩ : Sends log s w _ _ := s.drain_sends w
  obtain ⟨hn, htaken⟩ := hsends hlog hoffer
  rw [← drain_eq_drainLoop hmode] at hends
  refine ⟨n, hn, htaken, ?_⟩
  obtain ⟨hnone, -⟩ | ⟨cause, hmet, houtcome⟩ := hends
  · rw [hnone, hclean] at hfault
    cases hfault
  · rw [hmet, hclean, List.nil_append, List.mem_singleton] at hfault
    rw [hsession, ← hfault] at houtcome
    change _ = if s.settings.writeBufferSize ∣ s.sent + n - s.sent then _ else _ at houtcome
    rw [Nat.add_sub_cancel_left] at houtcome
    rw [← houtcome, ← hsession]

/-- Cutting off the end of the data that was not sent leaves what was pending before, as far as it
was not sent either. -/
theorem take_drop_unsent (pending data : Bytes) {n : Nat} (hn : n ≤ pending.length + data.length) :
    ((pending ++ data).drop n).take (((pending ++ data).drop n).length -
      (data.length - (n - pending.length))) = pending.drop n := by
  have hkept : ((pending ++ data).drop n).length - (data.length - (n - pending.length)) =
      (pending.drop n).length := by
    rw [List.length_drop, List.length_drop, List.length_append]
    omega
  rw [hkept, List.drop_append]
  exact List.take_left

/-- A buffering write that meets a fault has sent a front part of the pending bytes and its data. If
this part is a whole number of buffers, the write cuts off the unsent part of its data, and it
fails with the fault unless some of the data was sent. If it is not, the write keeps everything that
was not sent, and succeeds. -/
theorem write_of_mem_faults {s : Session World} (hlog : s.device.Logs log)
    (hoffer : s.device.TakesWhatIsOffered) (hmode : s.settings.writeMode = .flushWhenFull)
    (data : Bytes) {w : World} (hclean : faults (log w) = []) {e : IoError}
    (hfault : e ∈ faults (log (s.write data w).world)) :
    ∃ n ≤ s.pending.length + data.length,
      taken (log (s.write data w).world) = taken (log w) ++ (s.pending ++ data).take n ∧
      (s.settings.writeBufferSize ∣ n → (s.write data w).session.pending = s.pending.drop n ∧
        (s.write data w).outcome =
          if n ≤ s.pending.length then .error (.io e) else .ok (n - s.pending.length)) ∧
      (¬s.settings.writeBufferSize ∣ n →
        (s.write data w).session.pending = (s.pending ++ data).drop n ∧
        (s.write data w).outcome = .ok data.length) := by
  rw [write_world hmode] at hfault ⊢
  obtain ⟨n, hn, htaken, hdrain⟩ :=
    drain_of_mem_faults (s := s.buffer data) hlog hoffer hmode hclean hfault
  have hlength : n ≤ s.pending.length + data.length :=
    Nat.le_trans hn (Nat.le_of_eq List.length_append)
  refine ⟨n, hlength, htaken, fun hwhole ↦ ?_, fun hpart ↦ ?_⟩
  · have hcut := take_drop_unsent s.pending data hlength
    have hleft : s.pending.length + data.length - ((s.pending ++ data).drop n).length -
        s.pending.length = n - s.pending.length := by
      rw [List.length_drop, List.length_append]
      omega
    change _ = Result.mk (if s.settings.writeBufferSize ∣ n then _ else _) _ _ at hdrain
    rw [if_pos hwhole] at hdrain
    rw [write_of_drain_error hmode hdrain hleft]
    simp only [Nat.sub_eq_zero_iff_le]
    exact ⟨hcut, trivial⟩
  · change _ = Result.mk (if s.settings.writeBufferSize ∣ n then _ else _) _ _ at hdrain
    rw [if_neg hpart] at hdrain
    rw [write_of_drain_ok hmode hdrain]
    exact ⟨rfl, rfl⟩

/-- A buffering write, one of whose writes to the device meets a fault. The device has taken a front
part of the pending bytes followed by the data. If the fault strikes between two buffers, what is
pending then are the bytes that were pending before and were not sent. The write fails with the
fault if no byte of the data was sent, and otherwise yields the number of those that were. If the
fault strikes inside of a buffer, all bytes that were not sent are pending, and the write yields the
length of the data. -/
theorem write_of_fault {s : Session World} (hoffer : s.device.TakesWhatIsOffered)
    (hmode : s.settings.writeMode = .flushWhenFull) (data : Bytes) (w : World) {offered : Bytes}
    {e : IoError} (hwrite : ⟨.write offered, .error e⟩ ∈ s.exchanges w (.write data))
    (hfault : e.IsFault) :
    let sent := taken (s.exchanges w (.write data))
    let done := s.write data w
    sent <+: s.pending ++ data ∧
      (s.settings.writeBufferSize ∣ sent.length →
        done.session.pending = s.pending.drop sent.length ∧
        done.outcome = if sent.length ≤ s.pending.length then .error (.io e)
          else .ok (sent.length - s.pending.length)) ∧
      (¬s.settings.writeBufferSize ∣ sent.length →
        done.session.pending = (s.pending ++ data).drop sent.length ∧
        done.outcome = .ok data.length) := by
  intro sent done
  have hrecorded : s.recorded.write data (w, []) = _ := s.perform_recorded w (.write data)
  have hmet : e ∈ faults (s.recorded.write data (w, [])).world.2 := by
    rw [hrecorded]
    exact mem_faults_iff.mpr ⟨hfault, offered, hwrite⟩
  obtain ⟨n, hn, htaken, hwhole, hpart⟩ := write_of_mem_faults (s := s.recorded)
    s.device.recorded_logs (Device.recorded_takesWhatIsOffered hoffer) hmode data rfl hmet
  rw [hrecorded] at htaken hwhole hpart
  change sent = (s.pending ++ data).take n at htaken
  change n ≤ s.pending.length + data.length at hn
  have hlength : sent.length = n := by
    rw [htaken, List.length_take, List.length_append, Nat.min_eq_left hn]
  rw [hlength]
  exact ⟨htaken ▸ List.take_prefix n _, hwhole, hpart⟩

/-- The device takes the first of three buffers and fails at the second. One byte of the data was
sent together with the one that was pending, and the others are dropped. -/
theorem write_of_fault_second_buffer :
    let s : Session Script :=
      { port := .onboard
        device := Script.device
        settings := { writeMode := .flushWhenFull, writeBufferSize := 2 }
        pending := [97] }
    let w : Script := { writes := [.takes 2, .fails ⟨.io .brokenPipe, "gone"⟩] }
    let done := s.write [98, 99, 100, 101, 102] w
    taken (s.exchanges w (.write [98, 99, 100, 101, 102])) = [97, 98] ∧
      done.session.pending = [] ∧ done.outcome = .ok 1 := by
  intro s w done
  obtain ⟨hfault, offered, hwrite⟩ := mem_faults_iff.mp
    (show ⟨.brokenPipe, "gone"⟩ ∈ faults (s.exchanges w (.write [98, 99, 100, 101, 102])) by decide)
  obtain ⟨-, hwhole, -⟩ := write_of_fault script_takesWhatIsOffered rfl
    [98, 99, 100, 101, 102] w hwrite hfault
  obtain ⟨hpending, houtcome⟩ := hwhole (by decide)
  exact ⟨by decide, hpending, houtcome⟩

/-- The device takes one byte of a buffer of four and fails then. The write claims to have accepted
all six bytes, and keeps the five that were not sent. -/
theorem fault_within_buffer_keeps_data :
    let s : Session Script :=
      { port := .onboard
        device := Script.device
        settings := { writeMode := .flushWhenFull, writeBufferSize := 4 } }
    let w : Script := { writes := [.takes 1, .fails ⟨.io .brokenPipe, "scripted BrokenPipe"⟩] }
    let done := s.write [97, 98, 99, 100, 101, 102] w
    faults (s.exchanges w (.write [97, 98, 99, 100, 101, 102])) =
        [⟨.brokenPipe, "scripted BrokenPipe"⟩] ∧
      taken (s.exchanges w (.write [97, 98, 99, 100, 101, 102])) = [97] ∧
      done.outcome = .ok 6 ∧ done.outcome ≠ .ok 1 ∧
      done.session.pending = [98, 99, 100, 101, 102] ∧ done.session.pending ≠ [] := by
  decide

end Session

end SerialLine
