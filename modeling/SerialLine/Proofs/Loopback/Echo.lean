import SerialLine.Proofs.Loopback.Wire
import SerialLine.Proofs.Session.Gather
/-!
# A session at the end of its own line

What a session writes to a loopback end of its own waits on the line of that end until the session
reads it again. `push_own`, `write_own` and `flush_own` show that bytes move from the pending ones
to the line, in whichever chunks. `gatherLoop_own` shows that they move on to the staged ones, until
these begin with a whole frame or the line is empty, if the time allows it; so a read hands out the
first frame of what is staged or on the line (`read_own`).
-/

set_option autoImplicit false

namespace SerialLine

/-- An end that does what it is asked to. It is not made to fail, it takes as much as it is given,
and nothing else is on its way to it. -/
structure End.Works (e : End) : Prop where
  arriving_eq : e.arriving = []
  faulted_eq : e.faulted = false
  budget_eq : e.budget = none

/-- An end whose reads wait for at most the given time. -/
def End.limited (e : End) (limit : Duration) : End :=
  { e with settings := { e.settings with timeout := limit } }

theorem End.Works.limited {e : End} (h : e.Works) (limit : Duration) : (e.limited limit).Works :=
  ⟨h.arriving_eq, h.faulted_eq, h.budget_eq⟩

namespace Bench

/-! ### Calls -/

variable (b : Bench) (p : Port) {e : End}

theorem perform_set_own (change : Setting) :
    (device (.own p)).perform (.set change) (b.put (.own p) e) =
      (.ok (), b.put (.own p) { e with settings := e.settings.record change }) :=
  congrArg (Prod.mk (Except.ok ())) (b.modify_put_self _ _ _)

theorem perform_flush_own (h : e.Works) :
    (device (.own p)).perform .flush (b.put (.own p) e) =
      (.ok (), b.put (.own p) { e with flushes := e.flushes + 1 }) := by
  simp only [device, unlessFaulted, put_ends_self, h.faulted_eq, Bool.false_eq_true, if_false,
    modify_put_self]

/-- Everything that is offered comes to the line. -/
theorem perform_write_own (h : e.Works) {offered : Bytes} (hoffered : offered ≠ []) :
    (device (.own p)).perform (.write offered) (b.put (.own p) e) =
      (.ok offered.length,
        b.put (.own p) { e with input := e.input ++ offered, clock := e.clock + b.pace }) := by
  have htaken : offered.length ≠ 0 := mt List.length_eq_zero_iff.mp hoffered
  obtain ⟨input, arriving, settings, faulted, budget, flushes, clock⟩ := e
  obtain ⟨rfl, rfl, rfl⟩ := h
  simp only [device, unlessFaulted, writeTo, tick, put_ends_self, Bool.false_eq_true, if_false,
    htaken, and_false, EndId.far, modify_put_self, put_put, Option.map_none, List.take_length,
    Prod.map_apply, id_eq]
  rfl

/-- A read takes as much from the front of the line as it has room for. -/
theorem perform_read_own (h : e.Works) {room : Nat} (hroom : 0 < room) (hline : e.input ≠ []) :
    (device (.own p)).perform (.read room) (b.put (.own p) e) =
      (.ok (e.input.take room),
        b.put (.own p) { e with input := e.input.drop room, clock := e.clock + b.pace }) := by
  obtain ⟨_ | ⟨byte, bytes⟩, arriving, settings, faulted, budget, flushes, clock⟩ := e
  · exact absurd rfl hline
  obtain ⟨rfl, rfl, rfl⟩ := h
  simp only [device, unlessFaulted, readFrom, tick, put_ends_self, Bool.false_eq_true, if_false,
    Nat.ne_of_gt hroom, modify_put_self, put_put, Prod.map_apply, id_eq]
  rfl

/-- At an empty line the timeout passes. -/
theorem perform_read_own_nil (h : e.Works) {room : Nat} (hroom : 0 < room) (hline : e.input = []) :
    (device (.own p)).perform (.read room) (b.put (.own p) e) =
      (.error ⟨.timedOut, "loopback read timed out"⟩,
        b.put (.own p) { e with clock := e.clock + e.settings.timeout.nanos + b.pace }) := by
  obtain ⟨input, arriving, settings, faulted, budget, flushes, clock⟩ := e
  obtain ⟨rfl, rfl, rfl⟩ := h
  cases hline
  simp only [device, unlessFaulted, readFrom, tick, put_ends_self, Bool.false_eq_true, if_false,
    Nat.ne_of_gt hroom, List.dropWhile_nil, modify_put_self, put_put, Prod.map_apply, id_eq]
  rfl

/-- A push brings everything to the line. -/
theorem push_own (h : e.Works) (bytes : Bytes) :
    ∃ e' : End, e'.Works ∧ e'.input = e.input ++ bytes ∧
      (device (.own p)).push bytes (b.put (.own p) e) =
        (⟨bytes.length, .complete⟩, b.put (.own p) e') := by
  cases bytes with
  | nil => exact ⟨e, h, (List.append_nil _).symm, rfl⟩
  | cons byte bytes =>
    have htaken := b.perform_write_own p h (List.cons_ne_nil byte bytes)
    refine ⟨{ e with input := e.input ++ byte :: bytes, clock := e.clock + b.pace },
      ⟨h.arriving_eq, h.faulted_eq, h.budget_eq⟩, rfl, ?_⟩
    show (device (.own p)).pushLoop (bytes.length + 1) (byte :: bytes) (b.put (.own p) e) = _
    simp only [Device.pushLoop, htaken, List.length_cons, List.drop_length]

end Bench

namespace Session

variable {p : Port} {e : End} {s : Session Bench}

/-! ### Writing -/

theorem push_own (hdevice : s.device = Bench.device (.own p)) (hworks : e.Works) (bytes : Bytes)
    (b : Bench) :
    ∃ e' : End, e'.Works ∧ e'.input = e.input ++ bytes ∧
      s.device.push bytes (b.put (.own p) e) =
        (⟨bytes.length, .complete⟩, b.put (.own p) e') :=
  hdevice ▸ b.push_own p hworks bytes

theorem flushDevice_own (hdevice : s.device = Bench.device (.own p)) (hworks : e.Works)
    (b : Bench) :
    ∃ e' : End, e'.Works ∧ e'.input = e.input ∧
      s.flushDevice (b.put (.own p) e) = ⟨.ok (), s, b.put (.own p) e'⟩ := by
  refine ⟨{ e with flushes := e.flushes + 1 },
    ⟨hworks.arriving_eq, hworks.faulted_eq, hworks.budget_eq⟩, rfl, ?_⟩
  unfold flushDevice
  rw [hdevice, b.perform_flush_own p hworks]

/-- A flush brings the pending bytes to the line. -/
theorem flush_own (hdevice : s.device = Bench.device (.own p)) (hworks : e.Works) (b : Bench) :
    ∃ e' : End, e'.Works ∧ e'.input = e.input ++ s.pending ∧
      s.flush (b.put (.own p) e) =
        ⟨.ok (), { s with pending := [], sent := s.sent + s.pending.length },
          b.put (.own p) e'⟩ := by
  obtain ⟨pushed, hpushed, hline, hpush⟩ := push_own hdevice hworks s.pending b
  obtain ⟨e', hworks', hkept, hflush⟩ :=
    flushDevice_own (s := s.dropSent ⟨s.pending.length, .complete⟩) hdevice hpushed b
  refine ⟨e', hworks', hkept.trans hline, ?_⟩
  rw [flush_of_push hpush]
  simp only [hflush]
  rw [dropSent, List.drop_length]

/-- Whole buffers go to the line, by induction on their number. What is on the line or pending stays
the same. -/
theorem drainLoop_own (buffers : Nat) (hdevice : s.device = Bench.device (.own p))
    (hworks : e.Works) (hsize : 0 < s.settings.writeBufferSize)
    (hbuffers : s.pending.length < buffers) (b : Bench) :
    ∃ pending sent e', e'.Works ∧ e'.input ++ pending = e.input ++ s.pending ∧
      sent + pending.length = s.sent + s.pending.length ∧
      drainLoop buffers s (b.put (.own p) e) =
        ⟨.ok (), { s with pending, sent }, b.put (.own p) e'⟩ := by
  induction buffers generalizing s e with
  | zero => exact absurd hbuffers (Nat.not_lt_zero _)
  | succ buffers ih =>
    unfold drainLoop
    by_cases hshort : s.pending.length < s.settings.writeBufferSize
    · exact ⟨s.pending, s.sent, e, hworks, rfl, rfl, if_pos hshort⟩
    · have hchunk : (s.pending.take s.settings.writeBufferSize).length =
          s.settings.writeBufferSize := by
        rw [List.length_take]
        omega
      obtain ⟨pushed, hpushed, hline, hpush⟩ :=
        push_own hdevice hworks (s.pending.take s.settings.writeBufferSize) b
      rw [hchunk] at hpush
      obtain ⟨pending, sent, e', hworks', hbytes, hcount, hloop⟩ :=
        ih (s := s.dropSent ⟨s.settings.writeBufferSize, .complete⟩) hdevice hpushed hsize (by
          show (s.pending.drop s.settings.writeBufferSize).length < buffers
          rw [List.length_drop]
          omega)
      refine ⟨pending, sent, e', hworks', ?_, ?_, ?_⟩
      · rw [hbytes, hline, List.append_assoc]
        exact congrArg (e.input ++ ·) (List.take_append_drop _ _)
      · rw [hcount]
        show s.sent + s.settings.writeBufferSize +
          (s.pending.drop s.settings.writeBufferSize).length = s.sent + s.pending.length
        rw [List.length_drop]
        omega
      · simp only [if_neg hshort, hpush, hloop]
        rfl

/-- A write accepts everything, in either mode. The bytes are on the line or pending. -/
theorem write_own (hdevice : s.device = Bench.device (.own p)) (hworks : e.Works)
    (hsize : 0 < s.settings.writeBufferSize) (hpending : s.pending = []) (data : Bytes)
    (b : Bench) :
    ∃ pending sent e', e'.Works ∧ e'.input ++ pending = e.input ++ data ∧
      sent + pending.length = s.sent + data.length ∧
      s.write data (b.put (.own p) e) =
        ⟨.ok data.length, { s with pending, sent }, b.put (.own p) e'⟩ := by
  cases hmode : s.settings.writeMode with
  | flushOnAccess =>
    obtain ⟨pushed, hpushed, hline, hpush⟩ := push_own hdevice hworks data b
    obtain ⟨e', hworks', hkept, hflush⟩ :=
      flushDevice_own (s := s.countSent ⟨data.length, .complete⟩) hdevice hpushed b
    refine ⟨[], s.sent + data.length, e', hworks', ?_, rfl, ?_⟩
    · rw [List.append_nil, hkept, hline]
    · unfold write
      simp only [hmode, hpush, hflush]
      rw [countSent, hpending]
  | flushWhenFull =>
    have hbuffered : (s.buffer data).pending = data := by
      rw [buffer, hpending, List.nil_append]
    obtain ⟨pending, sent, e', hworks', hbytes, hcount, hloop⟩ :=
      drainLoop_own (s := s.buffer data) ((s.buffer data).pending.length + 1) hdevice hworks hsize
        (Nat.lt_succ_self _) b
    rw [hbuffered] at hbytes hcount
    have hdrain : (s.buffer data).drain (b.put (.own p) e) =
        ⟨.ok (), { s with pending, sent }, b.put (.own p) e'⟩ :=
      (drain_eq_drainLoop (s := s.buffer data) hmode _).trans hloop
    exact ⟨pending, sent, e', hworks', hbytes, hcount, write_of_drain_ok hmode hdrain⟩

/-- A write and a flush bring everything to the line. -/
theorem write_flush_own (hdevice : s.device = Bench.device (.own p)) (hworks : e.Works)
    (hsize : 0 < s.settings.writeBufferSize) (hpending : s.pending = []) (data : Bytes)
    (b : Bench) :
    ∃ s₁ b₁ e', e'.Works ∧ e'.input = e.input ++ data ∧
      s.write data (b.put (.own p) e) = ⟨.ok data.length, s₁, b₁⟩ ∧
      s₁.flush b₁ = ⟨.ok (), { s with sent := s.sent + data.length }, b.put (.own p) e'⟩ := by
  obtain ⟨pending, sent, written, hwritten, hbytes, hcount, hwrite⟩ :=
    write_own hdevice hworks hsize hpending data b
  obtain ⟨e', hworks', hline, hflush⟩ :=
    flush_own (s := { s with pending, sent }) hdevice hwritten b
  refine ⟨_, _, e', hworks', hline.trans hbytes, hwrite, hflush.trans ?_⟩
  show Result.mk _ { s with pending := [], sent := sent + pending.length } _ = _
  rw [hcount, ← hpending]

/-! ### Reading -/

theorem setTimeout_own (hdevice : s.device = Bench.device (.own p)) (limit : Duration)
    (b : Bench) :
    s.device.perform (.set (.timeout limit)) (b.put (.own p) e) =
      (.ok (), b.put (.own p) (e.limited limit)) :=
  hdevice ▸ b.perform_set_own p (.timeout limit)

theorem now_own (hdevice : s.device = Bench.device (.own p)) (b : Bench) :
    s.device.now (b.put (.own p) e) = e.clock := by
  rw [hdevice]
  exact congrArg End.clock (b.put_ends_self (.own p) e)

/-- A fill stages a chunk from the front of the line, a whole read buffer if there is one. -/
theorem fill_own (hdevice : s.device = Bench.device (.own p)) (hworks : e.Works)
    (hsize : 0 < s.settings.readBufferSize) (hline : e.input ≠ []) (limit : Duration) (b : Bench) :
    ∃ chunk e', e'.Works ∧ e.input = chunk ++ e'.input ∧ 0 < chunk.length ∧
      (e'.input ≠ [] → chunk.length = s.settings.readBufferSize) ∧
      e'.clock = e.clock + b.pace ∧
      s.fill limit (b.put (.own p) e) = ⟨.ok (), s.stage chunk, b.put (.own p) e'⟩ := by
  have hread := hdevice ▸ b.perform_read_own p (hworks.limited limit) hsize hline
  refine ⟨e.input.take s.settings.readBufferSize, { e.limited limit with
      input := e.input.drop s.settings.readBufferSize, clock := e.clock + b.pace },
    ⟨hworks.arriving_eq, hworks.faulted_eq, hworks.budget_eq⟩,
    (List.take_append_drop _ _).symm, ?_, fun hrest ↦ ?_, rfl, ?_⟩
  · have hpos := List.length_pos_iff.mpr hline
    rw [List.length_take]
    omega
  · have hlong := mt List.drop_eq_nil_iff.mpr hrest
    rw [List.length_take]
    omega
  · unfold fill
    simp only [setTimeout_own hdevice, hread]
    rfl

/-- At an empty line a fill lasts for the whole time it is given. -/
theorem fill_own_nil (hdevice : s.device = Bench.device (.own p)) (hworks : e.Works)
    (hsize : 0 < s.settings.readBufferSize) (hline : e.input = []) (limit : Duration) (b : Bench) :
    ∃ e' : End, e'.Works ∧ e'.input = [] ∧ e.clock + limit.nanos ≤ e'.clock ∧
      s.fill limit (b.put (.own p) e) = ⟨.ok (), s, b.put (.own p) e'⟩ := by
  have hread := hdevice ▸ b.perform_read_own_nil p (hworks.limited limit) hsize hline
  refine ⟨{ e.limited limit with clock := e.clock + limit.nanos + b.pace },
    ⟨hworks.arriving_eq, hworks.faulted_eq, hworks.budget_eq⟩, hline, Nat.le_add_right _ _, ?_⟩
  unfold fill
  simp only [setTimeout_own hdevice, hread]
  rfl

/-- At an empty line nothing is staged and the time passes. -/
theorem gatherLoop_own_nil (limit deadline fills : Nat) (attempted : Bool)
    (hdevice : s.device = Bench.device (.own p)) (hworks : e.Works)
    (hsize : 0 < s.settings.readBufferSize) (hready : ¬s.FrameReady limit) (hline : e.input = [])
    (b : Bench) :
    ∃ e' : End, e'.Works ∧ e'.input = [] ∧
      gatherLoop limit deadline (fills + 1) attempted s (b.put (.own p) e) =
        ⟨.ok (), s, b.put (.own p) e'⟩ := by
  unfold gatherLoop
  simp only [if_neg hready, now_own hdevice]
  by_cases hpast : deadline - e.clock = 0 ∧ attempted
  · exact ⟨e, hworks, hline, if_pos hpast⟩
  · obtain ⟨e', hworks', hline', hclock, hfill⟩ :=
      fill_own_nil hdevice hworks hsize hline ⟨deadline - e.clock⟩ b
    have hlate : deadline ≤ s.device.now (b.put (.own p) e') := by
      rw [now_own hdevice]
      change e.clock + (deadline - e.clock) ≤ e'.clock at hclock
      omega
    refine ⟨e', hworks', hline', ?_⟩
    simp only [if_neg hpast, hfill, gatherLoop_of_late hlate]

/-- The chunks of the line are staged until the frame is ready or the line is empty, by induction on
the fills that are left. The time has to allow for all chunks that the frame still takes but the
last. -/
theorem gatherLoop_own (limit deadline fills : Nat) (attempted : Bool)
    (hdevice : s.device = Bench.device (.own p)) (hworks : e.Works)
    (hsize : 0 < s.settings.readBufferSize) (hfills : limit - s.staged.length + 1 ≤ fills)
    (b : Bench)
    (htime : ¬s.FrameReady limit → e.input ≠ [] →
      e.clock + b.pace * ((s.termination.frameLength (s.staged ++ e.input) limit -
        s.staged.length - 1) / s.settings.readBufferSize) < deadline) :
    ∃ bytes e', e'.Works ∧ e.input = bytes ++ e'.input ∧
      gatherLoop limit deadline fills attempted s (b.put (.own p) e) =
        ⟨.ok (), s.stage bytes, b.put (.own p) e'⟩ ∧
      ((s.stage bytes).FrameReady limit ∧ e'.clock ≤ e.clock + b.pace * bytes.length ∨
        ¬(s.stage bytes).FrameReady limit ∧ e'.input = []) := by
  induction fills generalizing attempted s e with
  | zero => omega
  | succ fills ih =>
    by_cases hready : s.FrameReady limit
    · refine ⟨[], e, hworks, rfl, ?_, .inl ⟨?_, Nat.le_refl _⟩⟩
      · rw [stage_nil, gatherLoop_of_ready hready]
      · rwa [stage_nil]
    have hroom := Termination.length_lt_of_not_ready hready
    by_cases hline : e.input = []
    · obtain ⟨e', hworks', hline', hloop⟩ :=
        gatherLoop_own_nil limit deadline fills attempted hdevice hworks hsize hready hline b
      refine ⟨[], e', hworks', by rw [hline, hline']; rfl, ?_, .inr ⟨?_, hline'⟩⟩
      · rw [stage_nil]
        exact hloop
      · rwa [stage_nil]
    · have henough := htime hready hline
      obtain ⟨chunk, filled, hfilled, hsplit, hchunk, hwhole, hclock, hfill⟩ :=
        fill_own hdevice hworks hsize hline ⟨deadline - e.clock⟩ b
      rw [hsplit, ← List.append_assoc] at henough
      have hlater : ¬(s.stage chunk).FrameReady limit → filled.input ≠ [] →
          filled.clock + b.pace * ((s.termination.frameLength (s.staged ++ chunk ++ filled.input)
            limit - (s.staged ++ chunk).length - 1) / s.settings.readBufferSize) < deadline := by
        intro hready' hline'
        -- the frame goes beyond this chunk, which fills the read buffer
        have hbeyond : (s.staged ++ chunk).length <
            s.termination.frameLength (s.staged ++ chunk ++ filled.input) limit :=
          Termination.length_lt_frameLength_append hready' hline'
        have hsteps : (s.termination.frameLength (s.staged ++ chunk ++ filled.input) limit -
              s.staged.length - 1) / s.settings.readBufferSize =
            (s.termination.frameLength (s.staged ++ chunk ++ filled.input) limit -
              (s.staged ++ chunk).length - 1) / s.settings.readBufferSize + 1 := by
          rw [← Nat.add_div_right _ hsize, ← hwhole hline']
          rw [List.length_append] at hbeyond ⊢
          congr 1
          omega
        rw [hsteps, Nat.mul_succ] at henough
        omega
      obtain ⟨bytes, e', hworks', hrest, hloop, hends⟩ := ih (s := s.stage chunk) true hdevice
        hfilled hsize (by rw [stage, List.length_append]; omega) hlater
      refine ⟨chunk ++ bytes, e', hworks', ?_, ?_, ?_⟩
      · rw [hsplit, hrest, List.append_assoc]
      · unfold gatherLoop
        have hnow : ¬(deadline - e.clock = 0 ∧ attempted) := by omega
        simp only [if_neg hready, now_own hdevice, if_neg hnow, hfill, hloop, stage_stage]
      · rw [← stage_stage]
        refine hends.imp_left (And.imp_right fun hspent ↦ ?_)
        rw [hclock] at hspent
        rw [List.length_append, Nat.mul_add]
        have hpace : b.pace ≤ b.pace * chunk.length := Nat.le_mul_of_pos_right _ hchunk
        omega

/-- The clock can tell the time at which a read that starts now has to give up. -/
def TellsDeadline {World : Type} (s : Session World) (w : World) : Prop :=
  s.device.now w + s.settings.timeout.nanos < clockLimit

instance {World : Type} (s : Session World) (w : World) : Decidable (s.TellsDeadline w) :=
  inferInstanceAs (Decidable (_ < _))

/-- A read whose gathering has come to a good end hands out the first frame of what is staged. -/
theorem read_of_gatherLoop {World : Type} {s t : Session World} {w v : World} {limit : Nat}
    (hlimit : 0 < limit) (hdeadline : s.TellsDeadline w)
    (h : gatherLoop limit (s.device.now w + s.settings.timeout.nanos)
      (limit + s.device.patience w + 2) false s w = ⟨.ok (), t, v⟩) :
    s.read limit w = ⟨.ok (t.staged.take (t.frameLength limit)),
      { t with staged := t.staged.drop (t.frameLength limit) }, t.restoreTimeout v⟩ := by
  unfold read
  simp only [if_neg (Nat.ne_of_gt hlimit), if_neg (Nat.not_le.mpr hdeadline), h]

/-- A gathering that has failed is all there is to its read. -/
theorem read_of_gatherLoop_error {World : Type} {s t : Session World} {w v : World} {limit : Nat}
    {cause : SerialError} (hlimit : 0 < limit) (hdeadline : s.TellsDeadline w)
    (h : gatherLoop limit (s.device.now w + s.settings.timeout.nanos)
      (limit + s.device.patience w + 2) false s w = ⟨.error cause, t, v⟩) :
    s.read limit w = ⟨.error cause, t, t.restoreTimeout v⟩ := by
  unfold read
  simp only [if_neg (Nat.ne_of_gt hlimit), if_neg (Nat.not_le.mpr hdeadline), h]

theorem tellsDeadline_own (hdevice : s.device = Bench.device (.own p)) (b : Bench) :
    s.TellsDeadline (b.put (.own p) e) ↔ e.clock + s.settings.timeout.nanos < clockLimit := by
  rw [TellsDeadline, now_own hdevice]

/-- The timeout is longer than the device takes for the reads that bring so many bytes, apart from
the last one of them. -/
def Outlasts (s : Session Bench) (b : Bench) (bytes : Nat) : Prop :=
  b.pace * ((bytes - 1) / s.settings.readBufferSize) < s.settings.timeout.nanos

instance (s : Session Bench) (b : Bench) (bytes : Nat) : Decidable (s.Outlasts b bytes) :=
  inferInstanceAs (Decidable (_ < _))

theorem Outlasts.mono {b : Bench} {fewer bytes : Nat} (h : s.Outlasts b bytes)
    (hle : fewer ≤ bytes) : s.Outlasts b fewer :=
  Nat.lt_of_le_of_lt (Nat.mul_le_mul_left b.pace
    (Nat.div_le_div_right (Nat.sub_le_sub_right hle 1))) h

/-- A read hands out the first frame of what is staged or on the line, and leaves the rest of it
there. As long as something is left, the time has been spent on bytes that have left the line. -/
theorem read_own {limit : Nat} (hdevice : s.device = Bench.device (.own p)) (hworks : e.Works)
    (hsize : 0 < s.settings.readBufferSize) (hlimit : 0 < limit) (b : Bench)
    (hdeadline : s.TellsDeadline (b.put (.own p) e))
    (htime : s.Outlasts b (s.termination.frameLength (s.staged ++ e.input) limit)) :
    ∃ staged received e', e'.Works ∧
      staged ++ e'.input = (s.staged ++ e.input).drop
        (s.termination.frameLength (s.staged ++ e.input) limit) ∧
      received + e'.input.length = s.received + e.input.length ∧
      (staged ++ e'.input ≠ [] →
        e'.clock + b.pace * e'.input.length ≤ e.clock + b.pace * e.input.length) ∧
      s.read limit (b.put (.own p) e) =
        ⟨.ok ((s.staged ++ e.input).take
          (s.termination.frameLength (s.staged ++ e.input) limit)),
          { s with staged, received }, b.put (.own p) e'⟩ := by
  obtain ⟨bytes, gathered, hgathered, hsplit, hloop, hends⟩ :=
    gatherLoop_own limit (e.clock + s.settings.timeout.nanos)
      (limit + s.device.patience (b.put (.own p) e) + 2) false hdevice hworks hsize (by omega) b
      fun _ _ ↦ Nat.add_lt_add_left (htime.mono (Nat.sub_le _ _)) e.clock
  have hframe : s.termination.frameLength (s.staged ++ e.input) limit =
      (s.stage bytes).frameLength limit := by
    rw [hsplit, ← List.append_assoc]
    rcases hends with ⟨hready, -⟩ | ⟨-, hline⟩
    · exact Termination.Ready.frameLength_append hready _
    · rw [hline, List.append_nil]
      rfl
  have hshort : (s.stage bytes).frameLength limit ≤ (s.staged ++ bytes).length :=
    Termination.frameLength_le _ _ _
  refine ⟨(s.staged ++ bytes).drop ((s.stage bytes).frameLength limit),
    s.received + bytes.length, gathered.limited s.settings.timeout, hgathered.limited _, ?_, ?_,
    fun hrest ↦ ?_, ?_⟩
  · rw [hframe, hsplit, ← List.append_assoc]
    exact (List.drop_append_of_le_length hshort).symm
  · rw [hsplit, List.length_append, Nat.add_assoc]
    rfl
  · rcases hends with ⟨-, hclock⟩ | ⟨hready, hline⟩
    · rw [hsplit, List.length_append, Nat.mul_add]
      show gathered.clock + b.pace * gathered.input.length ≤ _
      omega
    · have hall : (s.stage bytes).frameLength limit = (s.staged ++ bytes).length :=
        Termination.frameLength_of_not_ready hready
      rw [hall, List.drop_length] at hrest
      exact absurd hline hrest
  · rw [hframe, hsplit, ← List.append_assoc, List.take_append_of_le_length hshort]
    rw [← now_own hdevice b] at hloop
    rw [read_of_gatherLoop hlimit hdeadline hloop, restoreTimeout,
      setTimeout_own (s := s.stage bytes) hdevice]
    rfl

end Session

end SerialLine
