import SerialLine.Proofs.Session.Answers
import SerialLine.Proofs.Session.Output
/-!
# Writing what was not accepted

A caller whose write was cut short, or has failed, writes what was not accepted again. The device
then gets no byte of the data twice, in either write mode, as long as it sends what it is asked to
flush (`write_retried`). `Session.TakesIn` says which bytes the device has got, or the session holds
for it, on the way from one session to another, and `Session.Retries` is a series of such attempts.

A session that writes through asks the device to send the data after it has taken all of it. When
the device fails to, the write fails although nothing is left to write, and the next attempt sends
the data once more (`failed_flush_resends`).
-/

set_option autoImplicit false

namespace SerialLine

namespace Session

variable {World : Type}

/-- The data and nothing else has been taken in. Writing through, the device has got it; buffering,
it is at the end of what the device has got and of what is pending. -/
structure TakesIn (s s' : Session World) (output data : Bytes) : Prop where
  device_eq : s'.device = s.device
  settings_eq : s'.settings = s.settings
  through_eq : s.settings.writeMode = .flushOnAccess → output = data ∧ s'.pending = s.pending
  buffered_eq : s.settings.writeMode = .flushWhenFull → output ++ s'.pending = s.pending ++ data

theorem TakesIn.refl (s : Session World) : s.TakesIn s [] [] where
  device_eq := rfl
  settings_eq := rfl
  through_eq _ := ⟨rfl, rfl⟩
  buffered_eq _ := (List.append_nil _).symm

theorem TakesIn.trans {s s' s'' : Session World} {output output' data data' : Bytes}
    (hfirst : s.TakesIn s' output data) (hsecond : s'.TakesIn s'' output' data') :
    s.TakesIn s'' (output ++ output') (data ++ data') where
  device_eq := hsecond.device_eq.trans hfirst.device_eq
  settings_eq := hsecond.settings_eq.trans hfirst.settings_eq
  through_eq hmode := by
    obtain ⟨rfl, hpending⟩ := hfirst.through_eq hmode
    obtain ⟨rfl, hpending'⟩ := hsecond.through_eq (hfirst.settings_eq ▸ hmode)
    exact ⟨rfl, hpending'.trans hpending⟩
  buffered_eq hmode := by
    have hstream' := hsecond.buffered_eq (hfirst.settings_eq ▸ hmode)
    rw [List.append_assoc, hstream', ← List.append_assoc, hfirst.buffered_eq hmode,
      List.append_assoc]

/-- A write takes in as many bytes as it says. One that fails has taken in nothing, or it writes
through and the device has failed to send all of the data. -/
theorem write_takesIn {s : Session World} (hoffer : s.device.TakesWhatIsOffered) (data : Bytes)
    (w : World) :
    ∃ n, s.TakesIn (s.write data w).session (taken (s.exchanges w (.write data))) (data.take n) ∧
      ((s.write data w).outcome = .ok n ∨
        (∃ e, (s.write data w).outcome = .error e ∧ (n = 0 ∨ data.length ≤ n ∧
          s.settings.writeMode = .flushOnAccess ∧
          flushFailed (s.exchanges w (.write data)) = true)) ∨
        ∃ h, (s.write data w).outcome = .halt h) := by
  have hrecorded : s.recorded.write data (w, []) = _ := s.perform_recorded w (.write data)
  have hdevice : (s.write data w).session.device = s.device := s.perform_device w (.write data)
  have hsettings : (s.write data w).session.settings = s.settings :=
    (s.perform_frame w (.write data)).settings_eq not_false
  cases hmode : s.settings.writeMode with
  | flushOnAccess =>
    obtain ⟨n, hsession, hbytes, houtcome⟩ :=
      write_through (s := s.recorded) Prod.snd hmode data (w, [])
    obtain ⟨-, htaken⟩ :=
      hbytes s.device.recorded_logs (Device.recorded_takesWhatIsOffered hoffer)
    rw [hrecorded] at hsession htaken houtcome
    have hpending : (s.write data w).session.recorded.pending = s.pending :=
      congrArg Session.pending hsession
    refine ⟨n, ⟨hdevice, hsettings, fun _ ↦ ⟨htaken, hpending⟩, fun h ↦ ?_⟩, ?_⟩
    · cases hmode.symm.trans h
    · refine houtcome.imp_right (.imp_left ?_)
      rintro ⟨e, herror, hend⟩
      exact ⟨e, herror, hend.imp_right fun h ↦ ⟨h.1, rfl, h.2 s.device.recorded_logs⟩⟩
  | flushWhenFull =>
    obtain ⟨n, hsends, houtcome⟩ :=
      write_buffered (s := s.recorded) Prod.snd hmode data (w, [])
    rw [hrecorded] at hsends houtcome
    have hstream := (hsends.output s.device.recorded_logs
      (Device.recorded_takesWhatIsOffered hoffer)).1
    refine ⟨n, ⟨hdevice, hsettings, fun h ↦ ?_, fun _ ↦ hstream⟩, ?_⟩
    · cases hmode.symm.trans h
    · refine houtcome.imp_right (.imp ?_ ?_)
      · rintro ⟨e, herror, hnone⟩
        exact ⟨e, herror, .inl hnone⟩
      · rintro ⟨h, hhalt, -⟩
        exact ⟨h, hhalt⟩

theorem takesIn_of_write_ok {s : Session World} (hoffer : s.device.TakesWhatIsOffered)
    {data : Bytes} {w : World} {n : Nat} (h : (s.write data w).outcome = .ok n) :
    s.TakesIn (s.write data w).session (taken (s.exchanges w (.write data))) (data.take n) := by
  obtain ⟨m, htakes, hok | ⟨e, herror, -⟩ | ⟨reason, hhalt⟩⟩ := write_takesIn hoffer data w
  · obtain rfl := Outcome.ok.inj (h.symm.trans hok)
    exact htakes
  · cases h.symm.trans herror
  · cases h.symm.trans hhalt

theorem takesIn_of_write_error {s : Session World} (hoffer : s.device.TakesWhatIsOffered)
    {data : Bytes} {w : World} {e : SerialError} (h : (s.write data w).outcome = .error e) :
    s.TakesIn (s.write data w).session (taken (s.exchanges w (.write data))) [] ∨
      s.settings.writeMode = .flushOnAccess ∧
        flushFailed (s.exchanges w (.write data)) = true ∧
        s.TakesIn (s.write data w).session (taken (s.exchanges w (.write data))) data := by
  obtain ⟨m, htakes, hok | ⟨cause, -, rfl | ⟨hall, hmode, hfailed⟩⟩ | ⟨reason, hhalt⟩⟩ :=
    write_takesIn hoffer data w
  · cases h.symm.trans hok
  · exact .inl htakes
  · rw [List.take_of_length_le hall] at htakes
    exact .inr ⟨hmode, hfailed, htakes⟩
  · cases h.symm.trans hhalt

/-- Attempts to write data, each of what those before it have not accepted, with the exchanges that
they bring about and the bytes that are left in the end. -/
inductive Retries : Session World → World → Bytes → List Exchange → Session World → World →
    Bytes → Prop
  | none (s : Session World) (w : World) (data : Bytes) : Retries s w data [] s w data
  | accepted {s s' : Session World} {w w' : World} {data rest : Bytes} {log : List Exchange}
      {n : Nat} (write : (s.write data w).outcome = .ok n)
      (retries : Retries (s.write data w).session (s.write data w).world (data.drop n) log s' w'
        rest) : Retries s w data (s.exchanges w (.write data) ++ log) s' w' rest
  | failed {s s' : Session World} {w w' : World} {data rest : Bytes} {log : List Exchange}
      {e : SerialError} (write : (s.write data w).outcome = .error e)
      (retries : Retries (s.write data w).session (s.write data w).world data log s' w' rest) :
      Retries s w data (s.exchanges w (.write data) ++ log) s' w' rest

/-- Attempts take in the front of the data, up to what is left of it, by induction on them. -/
theorem Retries.takesIn {s s' : Session World} {w w' : World} {data rest : Bytes}
    {log : List Exchange} (h : s.Retries w data log s' w' rest)
    (hoffer : s.device.TakesWhatIsOffered) (hsent : flushFailed log = false) :
    ∃ accepted, data = accepted ++ rest ∧ s.TakesIn s' (taken log) accepted := by
  induction h with
  | none s w data => exact ⟨[], rfl, .refl s⟩
  | @accepted s s' w w' data rest log n hok _ ih =>
    rw [flushFailed_append, Bool.or_eq_false_iff] at hsent
    have hfirst := takesIn_of_write_ok hoffer hok
    obtain ⟨accepted, hdata, hlater⟩ := ih (hfirst.device_eq ▸ hoffer) hsent.2
    refine ⟨data.take n ++ accepted, ?_, taken_append _ _ ▸ hfirst.trans hlater⟩
    rw [List.append_assoc, ← hdata, List.take_append_drop]
  | @failed s s' w w' data rest log e herror _ ih =>
    rw [flushFailed_append, Bool.or_eq_false_iff] at hsent
    rcases takesIn_of_write_error hoffer herror with hfirst | ⟨-, hfailed, -⟩
    · obtain ⟨accepted, hdata, hlater⟩ := ih (hfirst.device_eq ▸ hoffer) hsent.2
      exact ⟨accepted, hdata, taken_append _ _ ▸ hfirst.trans hlater⟩
    · rw [hsent.1] at hfailed
      cases hfailed

/-- A write that yields a number has taken in so many bytes from the front of its data, and no
others. A write that fails has taken in none, unless the session writes through and the device has
failed to send the data after it took all of it. So in a series of attempts, each to write what was
not accepted before, every byte that is not left in the end has been taken in once, and no other
has, as long as the device does not fail to send what it holds. -/
theorem write_retried {s : Session World} (hoffer : s.device.TakesWhatIsOffered) (w : World)
    (data : Bytes) :
    let exchanges := s.exchanges w (.write data)
    let done := s.write data w
    (∀ n, done.outcome = .ok n →
        n ≤ data.length ∧ s.TakesIn done.session (taken exchanges) (data.take n)) ∧
      (∀ e, done.outcome = .error e → s.TakesIn done.session (taken exchanges) [] ∨
        s.settings.writeMode = .flushOnAccess ∧ flushFailed exchanges = true ∧
          s.TakesIn done.session (taken exchanges) data) ∧
      ∀ log s' w' rest, s.Retries w data log s' w' rest → flushFailed log = false →
        ∃ accepted, data = accepted ++ rest ∧ s.TakesIn s' (taken log) accepted := by
  intro exchanges done
  refine ⟨fun n hok ↦ ⟨?_, ?_⟩, fun e herror ↦ ?_, fun log s' w' rest h ↦ h.takesIn hoffer⟩
  · exact le_length_of_write_ok hoffer hok
  · exact takesIn_of_write_ok hoffer hok
  · exact takesIn_of_write_error hoffer herror

/-- Four bytes go out in three attempts, behind one that was pending. The device fails at the first
buffer, takes it in the next attempt and fails at the second, and takes the rest. -/
theorem write_retried_twice :
    let s : Session Script :=
      { port := .onboard
        device := Script.device
        settings := { writeMode := .flushWhenFull, writeBufferSize := 2 }
        pending := [9] }
    let w : Script :=
      { writes := [.fails ⟨.io .brokenPipe, "gone"⟩, .takes 2, .fails ⟨.io .brokenPipe, "gone"⟩] }
    let first := s.write [1, 2, 3, 4] w
    let second := first.session.write [1, 2, 3, 4] first.world
    let third := second.session.write [2, 3, 4] second.world
    let log := s.exchanges w (.write [1, 2, 3, 4]) ++
      (first.session.exchanges first.world (.write [1, 2, 3, 4]) ++
        (second.session.exchanges second.world (.write [2, 3, 4]) ++ []))
    s.Retries w [1, 2, 3, 4] log third.session third.world [] ∧ flushFailed log = false ∧
      taken log = [9, 1, 2, 3] ∧ third.session.pending = [4] ∧
      ∃ accepted, [1, 2, 3, 4] = accepted ++ [] ∧ s.TakesIn third.session (taken log) accepted := by
  intro s w first second third log
  have hfirst : first.outcome = .error (.io ⟨.brokenPipe, "gone"⟩) := by decide
  have hsecond : second.outcome = .ok 1 := by decide
  have hthird : third.outcome = .ok 3 := by decide
  have hretries : s.Retries w [1, 2, 3, 4] log third.session third.world [] :=
    .failed hfirst (.accepted hsecond (.accepted hthird (.none _ _ _)))
  have hsent : flushFailed log = false := by decide
  obtain ⟨-, -, hretried⟩ := write_retried (s := s) script_takesWhatIsOffered w [1, 2, 3, 4]
  exact ⟨hretries, hsent, by decide, by decide, hretried _ _ _ _ hretries hsent⟩

/-- The device takes all four bytes and fails to send them. The write fails, and writing the data
again hands the same bytes over a second time. -/
theorem failed_flush_resends :
    let s : Session Script := { port := .onboard, device := Script.device, settings := {} }
    let w : Script := { calls := [(.flush, .fails ⟨.io .brokenPipe, "scripted BrokenPipe"⟩)] }
    let done := s.write [97, 98, 99, 100] w
    let again := done.session.write [97, 98, 99, 100] done.world
    done.outcome = .error (.io ⟨.brokenPipe, "scripted BrokenPipe"⟩) ∧
      done.outcome ≠ .ok 4 ∧
      taken (s.exchanges w (.write [97, 98, 99, 100])) = [97, 98, 99, 100] ∧
      taken (s.exchanges w (.write [97, 98, 99, 100])) ≠ [] ∧
      again.outcome = .ok 4 ∧
      again.world.output = [97, 98, 99, 100, 97, 98, 99, 100] := by
  decide

end Session

end SerialLine
