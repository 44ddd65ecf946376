import SerialLine.Proofs.Session.Frame
import SerialLine.Proofs.Session.History
import SerialLine.Script
/-!
# Output arrives exactly once and in order

A write hands its data to the device, to the pending bytes of the session, or in part to both, and
the pending bytes leave in later operations. `Step.accepted` is the part of the data that counts as
accepted, read off the answer of the write. `Step.KeepsOutput` is the law of output for one
operation: what the device has taken, followed by what is pending afterwards, is what was pending
before, followed by what was accepted. `step_keepsOutput` shows it of every operation but the one
that discards output, over every device that takes at most what it is offered, and
`output_exactly_once` carries it through whole histories.
-/

set_option autoImplicit false

namespace SerialLine

namespace Session

variable {World : Type}

/-- The part of the data of a write that counts as accepted. A write that fails has accepted
nothing, except that a write which goes straight to the device may fail after all of its data was
taken, when the device does not manage to send it. -/
def Step.accepted : Step World → Bytes
  | ⟨.write data, _, .ok n, _, _⟩ => data.take n
  | ⟨.write data, before, .error _, exchanges, _⟩ =>
    match before.settings.writeMode with
    | .flushWhenFull => []
    | .flushOnAccess => if taken exchanges = data ∧ flushFailed exchanges then data else []
  -- a write that never returns has accepted what it has got hold of
  | ⟨.write data, before, .halt _, exchanges, _⟩ =>
    match before.settings.writeMode with
    | .flushWhenFull => data
    | .flushOnAccess => taken exchanges
  | _ => []

/-- Writing through, nothing is held back in the session. -/
def NothingHeldBack (s : Session World) : Prop :=
  s.settings.writeMode = .flushOnAccess → s.pending = []

/-- The law of output for one step. -/
structure Step.KeepsOutput (x : Step World) : Prop where
  /-- Bytes come to the end of what is pending and leave from the front. -/
  pending_eq : taken x.exchanges ++ x.after.pending = x.before.pending ++ x.accepted
  sent_eq : x.after.sent = x.before.sent + (taken x.exchanges).length
  nothingHeldBack : x.after.NothingHeldBack

/-! ### One operation -/

section Sends

variable {log : World → List Exchange} {s s' : Session World} {w w' : World}

/-- Sending moves bytes from the front of what is pending to the device. -/
theorem Sends.output (h : Sends log s w s' w') (hlog : s.device.Logs log)
    (hoffer : s.device.TakesWhatIsOffered) :
    taken (log w') ++ s'.pending = taken (log w) ++ s.pending ∧
      s'.sent + (taken (log w)).length = s.sent + (taken (log w')).length := by
  obtain ⟨n, rfl, htaken⟩ := h
  obtain ⟨hle, heq⟩ := htaken hlog hoffer
  rw [heq]
  constructor
  · rw [List.append_assoc, List.take_append_drop]
  · rw [List.length_append, List.length_take, Nat.min_eq_left hle]
    show s.sent + n + _ = s.sent + (_ + n)
    omega

theorem Sends.nothingHeldBack (h : Sends log s w s' w') (hs : s.NothingHeldBack) :
    s'.NothingHeldBack := by
  obtain ⟨n, rfl, -⟩ := h
  intro hmode
  show s.pending.drop n = []
  rw [hs hmode, List.drop_nil]

end Sends

/-- An operation keeps the law of output if it comes to the same as sending from what was pending
before, followed by what it has accepted. -/
theorem keepsOutput_of_sends {s : Session World} {w : World} {op : Operation}
    {t t' : Session (World × List Exchange)} (hoffer : s.device.TakesWhatIsOffered)
    (hsends : Sends Prod.snd t (w, []) t' ((s.perform w op).world, s.exchanges w op))
    (hdevice : t.device = s.device.recorded)
    (hbefore : t.pending = s.pending ++ (s.step w op).accepted ∧ t.sent = s.sent)
    (hafter : (s.perform w op).session.pending = t'.pending ∧
      (s.perform w op).session.sent = t'.sent)
    (hheld : (s.perform w op).session.NothingHeldBack) : (s.step w op).KeepsOutput := by
  obtain ⟨hstream, hcount⟩ := hsends.output (hdevice ▸ s.device.recorded_logs)
    (hdevice ▸ Device.recorded_takesWhatIsOffered hoffer)
  rw [hbefore.1, ← hafter.1] at hstream
  rw [hbefore.2, ← hafter.2] at hcount
  exact ⟨hstream, hcount, hheld⟩

theorem flush_keepsOutput {s : Session World} (hoffer : s.device.TakesWhatIsOffered)
    (hs : s.NothingHeldBack) (w : World) : (s.step w .flush).KeepsOutput := by
  have hsends : Sends Prod.snd s.recorded (w, []) _ _ := s.recorded.flush_sends (w, [])
  have hrecorded : s.recorded.flush (w, []) = _ := s.perform_recorded w .flush
  rw [hrecorded] at hsends
  have hheld : (s.perform w .flush).session.recorded.NothingHeldBack := hsends.nothingHeldBack hs
  exact keepsOutput_of_sends hoffer hsends rfl ⟨(List.append_nil _).symm, rfl⟩ ⟨rfl, rfl⟩ hheld

theorem setWriteBufferSize_keepsOutput {s : Session World} (hoffer : s.device.TakesWhatIsOffered)
    (hs : s.NothingHeldBack) (w : World) (size : Nat) :
    (s.step w (.setWriteBufferSize size)).KeepsOutput := by
  have hrecorded : s.recorded.setWriteBufferSize size (w, []) = _ :=
    s.perform_recorded w (.setWriteBufferSize size)
  obtain ⟨t, hdevice, hbefore, hheld, hsends⟩ : ∃ t : Session (World × List Exchange),
      t.device = s.device.recorded ∧ (t.pending = s.pending ∧ t.sent = s.sent) ∧
        t.NothingHeldBack ∧
        Sends Prod.snd t (w, []) (s.recorded.setWriteBufferSize size (w, [])).session
          (s.recorded.setWriteBufferSize size (w, [])).world := by
    by_cases hsize : size = 0
    · rw [hsize]
      exact ⟨s.recorded, rfl, ⟨rfl, rfl⟩, hs, .refl s.recorded (w, [])⟩
    · rw [s.recorded.setWriteBufferSize_eq hsize]
      exact ⟨_, rfl, ⟨rfl, rfl⟩, hs, drain_sends _ (w, [])⟩
  have hafter := hsends.nothingHeldBack hheld
  rw [hrecorded] at hsends hafter
  exact keepsOutput_of_sends hoffer hsends hdevice
    ⟨hbefore.1.trans (List.append_nil _).symm, hbefore.2⟩ ⟨rfl, rfl⟩ hafter

theorem setWriteMode_keepsOutput {s : Session World} (hoffer : s.device.TakesWhatIsOffered)
    (hs : s.NothingHeldBack) (w : World) (mode : WriteMode) :
    (s.step w (.setWriteMode mode)).KeepsOutput := by
  have hrecorded : s.recorded.setWriteMode mode (w, []) = _ :=
    s.perform_recorded w (.setWriteMode mode)
  rcases s.recorded.setWriteMode_cases Prod.snd mode (w, []) with
    ⟨t, v, hsends, hempty, hset⟩ | ⟨outcome, t, v, -, hsends, hset⟩
  · rw [hset, Result.mk.injEq] at hrecorded
    obtain ⟨-, hsession, hworld⟩ := hrecorded
    rw [hworld] at hsends
    have hpending : t.pending = (s.perform w (.setWriteMode mode)).session.pending :=
      congrArg Session.pending hsession
    have hmode : mode = (s.perform w (.setWriteMode mode)).session.settings.writeMode :=
      congrArg (fun t ↦ t.settings.writeMode) hsession
    refine keepsOutput_of_sends hoffer hsends rfl ⟨(List.append_nil _).symm, rfl⟩
      ⟨hpending.symm, (congrArg Session.sent hsession).symm⟩ fun hthrough ↦ ?_
    rw [← hpending]
    exact hempty (hmode.trans hthrough)
  · rw [hset, Result.mk.injEq] at hrecorded
    obtain ⟨-, rfl, rfl⟩ := hrecorded
    have hheld := hsends.nothingHeldBack hs
    exact keepsOutput_of_sends hoffer hsends rfl ⟨(List.append_nil _).symm, rfl⟩ ⟨rfl, rfl⟩ hheld

/-- Writing through, what is accepted is what the device has taken, whatever the write comes to. -/
theorem accepted_of_write_through {s : Session World} {w : World} {data : Bytes} {n : Nat}
    (hmode : s.settings.writeMode = .flushOnAccess)
    (htaken : taken (s.exchanges w (.write data)) = data.take n)
    (houtcome : (s.perform w (.write data)).outcome = .ok n ∨
      (∃ e, (s.perform w (.write data)).outcome = .error e ∧
        (n = 0 ∨ data.length ≤ n ∧ flushFailed (s.exchanges w (.write data)) = true)) ∨
      ∃ h, (s.perform w (.write data)).outcome = .halt h) :
    (s.step w (.write data)).accepted = taken (s.exchanges w (.write data)) := by
  unfold step
  rcases houtcome with hok | ⟨e, herror, hend⟩ | ⟨h, hhalt⟩
  · rw [hok]
    exact htaken.symm
  · rw [herror]
    simp only [Step.accepted, hmode, htaken]
    rcases hend with hnone | ⟨hall, hfailed⟩
    · rw [hnone, List.take_zero]
      by_cases hempty : [] = data ∧ flushFailed (s.exchanges w (.write data)) = true
      · rw [if_pos hempty]
        exact hempty.1.symm
      · rw [if_neg hempty]
    · rw [List.take_of_length_le hall]
      exact if_pos ⟨rfl, hfailed⟩
  · rw [hhalt]
    simp only [Step.accepted, hmode]

theorem write_through_keepsOutput {s : Session World} (hoffer : s.device.TakesWhatIsOffered)
    (hmode : s.settings.writeMode = .flushOnAccess) (hs : s.NothingHeldBack) (w : World)
    (data : Bytes) : (s.step w (.write data)).KeepsOutput := by
  have hrecorded : s.recorded.write data (w, []) = _ := s.perform_recorded w (.write data)
  obtain ⟨n, hsession, htaken, houtcome⟩ :=
    write_through (s := s.recorded) Prod.snd hmode data (w, [])
  obtain ⟨hle, hdata⟩ := htaken s.device.recorded_logs (Device.recorded_takesWhatIsOffered hoffer)
  rw [hrecorded] at hsession hdata houtcome
  have hpending := congrArg Session.pending hsession
  have hsent := congrArg Session.sent hsession
  change (s.perform w (.write data)).session.pending = s.pending at hpending
  change (s.perform w (.write data)).session.sent = s.sent + n at hsent
  change taken (s.exchanges w (.write data)) = data.take n at hdata
  have haccepted : (s.step w (.write data)).accepted = taken (s.exchanges w (.write data)) := by
    refine accepted_of_write_through hmode hdata ?_
    rcases houtcome with hok | ⟨e, herror, hend⟩ | hhalt
    · exact .inl hok
    · exact .inr (.inl ⟨e, herror, hend.imp_right fun h ↦ ⟨h.1, h.2 s.device.recorded_logs⟩⟩)
    · exact .inr (.inr hhalt)
  refine ⟨?_, ?_, fun hthrough ↦ ?_⟩
  · show taken (s.exchanges w (.write data)) ++ (s.perform w (.write data)).session.pending =
      s.pending ++ (s.step w (.write data)).accepted
    rw [haccepted, hpending, hs hmode, List.append_nil, List.nil_append]
  · show (s.perform w (.write data)).session.sent =
      s.sent + (taken (s.exchanges w (.write data))).length
    rw [hsent, hdata, List.length_take, Nat.min_eq_left hle]
  · show (s.perform w (.write data)).session.pending = []
    rw [hpending, hs hmode]

/-- Buffering, what is accepted is the front of the data that the session has taken in. -/
theorem accepted_of_write_buffered {s : Session World} {w : World} {data : Bytes} {n : Nat}
    (hmode : s.settings.writeMode = .flushWhenFull)
    (houtcome : (s.perform w (.write data)).outcome = .ok n ∨
      (∃ e, (s.perform w (.write data)).outcome = .error e ∧ n = 0) ∨
      ∃ h, (s.perform w (.write data)).outcome = .halt h ∧ n = data.length) :
    (s.step w (.write data)).accepted = data.take n := by
  unfold step
  rcases houtcome with hok | ⟨e, herror, hnone⟩ | ⟨h, hhalt, hall⟩
  · rw [hok]
    rfl
  · rw [herror]
    simp only [Step.accepted, hmode, hnone, List.take_zero]
  · rw [hhalt]
    simp only [Step.accepted, hmode, hall, List.take_length]

theorem write_buffered_keepsOutput {s : Session World} (hoffer : s.device.TakesWhatIsOffered)
    (hmode : s.settings.writeMode = .flushWhenFull) (w : World) (data : Bytes) :
    (s.step w (.write data)).KeepsOutput := by
  have hrecorded : s.recorded.write data (w, []) = _ := s.perform_recorded w (.write data)
  obtain ⟨n, hsends, houtcome⟩ :=
    write_buffered (s := s.recorded) Prod.snd hmode data (w, [])
  rw [hrecorded] at hsends houtcome
  have haccepted := accepted_of_write_buffered hmode houtcome
  have hheld : (s.recorded.buffer (data.take n)).NothingHeldBack := by
    intro hthrough
    cases hmode.symm.trans hthrough
  have hafter := hsends.nothingHeldBack hheld
  exact keepsOutput_of_sends hoffer hsends rfl ⟨congrArg (s.pending ++ ·) haccepted.symm, rfl⟩
    ⟨rfl, rfl⟩ hafter

/-- Operations that are not about output keep the law of output by leaving everything as it is. -/
theorem keepsOutput_of_not_touchesOutput {s : Session World} {w : World} {op : Operation}
    (hs : s.NothingHeldBack) (hop : ¬ op.TouchesOutput) : (s.step w op).KeepsOutput := by
  obtain ⟨hpending, hsent, hmode⟩ := (s.perform_frame w op).pending_eq hop
  have htaken : taken (s.exchanges w op) = [] := by
    refine s.taken_exchanges_eq_nil w fun offered hmakes ↦ ?_
    cases op <;> simp_all [Operation.Makes, Operation.TouchesOutput]
  have haccepted : (s.step w op).accepted = [] := by
    cases op with
    | write data => exact absurd trivial hop
    | _ => rfl
  refine ⟨?_, ?_, fun hthrough ↦ ?_⟩
  · show taken (s.exchanges w op) ++ (s.perform w op).session.pending =
      s.pending ++ (s.step w op).accepted
    rw [htaken, hpending, haccepted, List.append_nil, List.nil_append]
  · show (s.perform w op).session.sent = s.sent + (taken (s.exchanges w op)).length
    rw [htaken, hsent, List.length_nil, Nat.add_zero]
  · show (s.perform w op).session.pending = []
    rw [hpending]
    exact hs (hmode.symm.trans hthrough)

/-- Every operation but the one that discards output keeps the law of output, over every device that
takes at most what it is offered. -/
theorem step_keepsOutput {s : Session World} (hoffer : s.device.TakesWhatIsOffered)
    (hs : s.NothingHeldBack) (w : World) {op : Operation} (hop : op ≠ .discardOutput) :
    (s.step w op).KeepsOutput := by
  cases op with
  | setWriteBufferSize size => exact setWriteBufferSize_keepsOutput hoffer hs w size
  | setWriteMode mode => exact setWriteMode_keepsOutput hoffer hs w mode
  | flush => exact flush_keepsOutput hoffer hs w
  | write data =>
    cases hmode : s.settings.writeMode with
    | flushOnAccess => exact write_through_keepsOutput hoffer hmode hs w data
    | flushWhenFull => exact write_buffered_keepsOutput hoffer hmode w data
  | discardOutput => exact absurd rfl hop
  | _ => exact keepsOutput_of_not_touchesOutput hs not_false

/-- A scripted device takes at most what it is offered. -/
theorem script_takesWhatIsOffered : Script.device.TakesWhatIsOffered := by
  intro offered script n hanswer
  have hwrite : ∀ m, ((script.note (.call (.write offered))).write offered).1 = .ok m →
      m ≤ offered.length := by
    intro m hm
    unfold Script.write at hm
    cases hwrites : (script.note (.call (.write offered))).writes with
    | nil =>
      simp only [hwrites] at hm
      exact Nat.le_of_eq (Except.ok.inj hm).symm
    | cons item items =>
      cases item with
      | takes limit =>
        simp only [hwrites] at hm
        rw [← Except.ok.inj hm]
        exact Nat.min_le_right limit offered.length
      | fails e =>
        simp only [hwrites] at hm
        cases hm
  change (((script.note (.call (.write offered))).write offered).1.mapError Host.Error.toIo) =
    .ok n at hanswer
  cases hanswered : ((script.note (.call (.write offered))).write offered).1 with
  | ok m =>
    rw [hanswered] at hanswer
    exact (Except.ok.inj hanswer) ▸ hwrite m hanswered
  | error e =>
    rw [hanswered] at hanswer
    cases hanswer

/-! ### Whole histories -/

/-- The law of output for one operation after another. -/
theorem run_keepsOutput {s : Session World} (hoffer : s.device.TakesWhatIsOffered)
    (hs : s.NothingHeldBack) (w : World) {ops : List Operation} (hops : .discardOutput ∉ ops) :
    taken (s.run w ops).exchanges ++ (s.run w ops).session.pending =
        s.pending ++ (s.run w ops).steps.flatMap Step.accepted ∧
      (s.run w ops).session.sent = s.sent + (taken (s.run w ops).exchanges).length ∧
      (s.run w ops).session.NothingHeldBack := by
  induction ops generalizing s w with
  | nil => exact ⟨(List.append_nil _).symm, rfl, hs⟩
  | cons op ops ih =>
    have hop : op ≠ .discardOutput := fun h ↦ hops (h ▸ List.mem_cons_self)
    have hstep := step_keepsOutput hoffer hs w hop
    have hdevice : (s.perform w op).session.device.TakesWhatIsOffered :=
      (s.perform_device w op).symm ▸ hoffer
    obtain ⟨hpending, hsent, hheld⟩ := ih hdevice hstep.nothingHeldBack (s.perform w op).world
      fun h ↦ hops (List.mem_cons_of_mem _ h)
    rw [run_cons_steps, run_cons_session, run_cons_exchanges, List.flatMap_cons, taken_append]
    refine ⟨?_, ?_, hheld⟩
    · rw [List.append_assoc, hpending, ← List.append_assoc, ← List.append_assoc]
      exact congrArg (· ++ _) hstep.pending_eq
    · rw [hsent, List.length_append, ← Nat.add_assoc]
      exact congrArg (· + _) hstep.sent_eq

/-- The bytes that the device has taken, followed by those that are pending, are the accepted parts
of the data of all writes, in order, as long as no output is discarded. Writing through, nothing is
pending, and the session has counted the bytes that the device has taken. -/
theorem output_exactly_once (port : Port) (device : Device World) (settings : LineSettings)
    (w : World) (ops : List Operation) (hoffer : device.TakesWhatIsOffered)
    (hops : .discardOutput ∉ ops) :
    let run := ({ port, device, settings } : Session World).run w ops
    taken run.exchanges ++ run.session.pending = run.steps.flatMap Step.accepted ∧
      (run.session.settings.writeMode = .flushOnAccess → run.session.pending = []) ∧
      run.session.sent = (taken run.exchanges).length := by
  intro run
  obtain ⟨hpending, hsent, hheld⟩ := run_keepsOutput
    (s := { port, device, settings }) hoffer (fun _ ↦ rfl) w hops
  exact ⟨hpending, hheld, hsent.trans (Nat.zero_add _)⟩

/-- Five bytes go out in three parts: the device takes two, interrupts and fails, and takes the rest
when the session is flushed. One that fails right away is not accepted, and is written again. -/
theorem output_exactly_once_scripted :
    let run := ({ port := .onboard
                  device := Script.device
                  settings := { writeMode := .flushWhenFull, writeBufferSize := 3 } } :
        Session Script).run
      { writes := [.takes 2, .fails ⟨.io .interrupted, "busy"⟩, .fails ⟨.io .brokenPipe, "gone"⟩,
          .takes 9, .fails ⟨.io .brokenPipe, "gone"⟩] }
      [.write [1, 2, 3, 4, 5], .flush, .setWriteMode .flushOnAccess, .write [6], .write [6]]
    run.steps.flatMap Step.accepted = [1, 2, 3, 4, 5, 6] ∧
      taken run.exchanges ++ run.session.pending = run.steps.flatMap Step.accepted ∧
      (run.session.settings.writeMode = .flushOnAccess → run.session.pending = []) ∧
      run.session.sent = (taken run.exchanges).length :=
  ⟨by rfl, output_exactly_once .onboard Script.device _ _ _ script_takesWhatIsOffered (by decide)⟩

end Session

end SerialLine
