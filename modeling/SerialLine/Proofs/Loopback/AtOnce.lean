import SerialLine.Proofs.Loopback.Echo
/-!
# Reads that do not wait

A session whose timeout is zero asks its device once and makes do with the answer. Over a loopback
end at which nothing else is to arrive, this is one read buffer from the front of the line, if a
frame is not staged from the start. The read hands out the first frame of what is staged then, and
leaves the rest of what is staged or on the line in order (`read_at_once`).

This is the first frame of all that is available exactly if the frame is ready by then or nothing is
left on the line. A frame that takes more than one read buffer is cut short
(`zero_timeout_leaves_available`).
-/

set_option autoImplicit false

namespace SerialLine

/-- An end that works as far as reading goes. It is not made to fail, and nothing else is on its way
to it. -/
structure End.Quiet (e : End) : Prop where
  arriving_eq : e.arriving = []
  faulted_eq : e.faulted = false

theorem End.Quiet.limited {e : End} (h : e.Quiet) (limit : Duration) : (e.limited limit).Quiet :=
  ⟨h.arriving_eq, h.faulted_eq⟩

namespace Bench

/-- A read takes what there is room for from the front of a quiet line. An empty line lets the
timeout pass. -/
theorem perform_read_quiet (b : Bench) {i : EndId} (h : (b.ends i).Quiet) {room : Nat}
    (hroom : 0 < room) :
    ∃ answer b', (device i).perform (.read room) b = (answer, b') ∧
      (b'.ends i).input = (b.ends i).input.drop room ∧ (b.ends i).clock ≤ (b'.ends i).clock ∧
      (answer = .ok ((b.ends i).input.take room) ∨
        (b.ends i).input = [] ∧ ∃ e, answer = .error e ∧ e.kind = .timedOut) := by
  have hperform : (device i).perform (.read room) b =
      (b.readFrom i room).map id (·.tick i b.pace) := if_neg (by simp [h.faulted_eq])
  cases hline : (b.ends i).input with
  | nil =>
    have hread : b.readFrom i room = (.error ⟨.timedOut, "loopback read timed out"⟩,
        (b.put i { b.ends i with arriving := [] }).tick i (b.ends i).settings.timeout.nanos) := by
      unfold readFrom
      simp only [if_neg (Nat.ne_of_gt hroom), hline, h.arriving_eq, List.dropWhile_nil]
    rw [hread] at hperform
    refine ⟨_, _, hperform, ?_, ?_, .inr ⟨rfl, _, rfl, rfl⟩⟩
    · simp [tick, hline]
    · simp only [tick, modify_ends_self, put_ends_self]
      omega
  | cons byte bytes =>
    have hread : b.readFrom i room = (.ok ((byte :: bytes).take room),
        b.put i { b.ends i with input := (byte :: bytes).drop room }) := by
      unfold readFrom
      simp only [if_neg (Nat.ne_of_gt hroom), hline]
    rw [hread] at hperform
    refine ⟨_, _, hperform, ?_, ?_, .inl rfl⟩
    · simp [tick]
    · simp [tick]

end Bench

namespace Session

variable {i : EndId} {s : Session Bench} {b : Bench}

/-- A fill stages a read buffer from the front of the line, as far as there are bytes. -/
theorem fill_quiet (hdevice : s.device = Bench.device i) (hquiet : (b.ends i).Quiet)
    (hsize : 0 < s.settings.readBufferSize) (limit : Duration) :
    ∃ b', s.fill limit b = ⟨.ok (), s.stage ((b.ends i).input.take s.settings.readBufferSize), b'⟩ ∧
      (b'.ends i).input = (b.ends i).input.drop s.settings.readBufferSize ∧
      (b.ends i).clock ≤ (b'.ends i).clock := by
  have hset : s.device.perform (.set (.timeout limit)) b =
      (.ok (), b.modify i (·.limited limit)) := by
    rw [hdevice]
    rfl
  have hlimited : (b.modify i (·.limited limit)).ends i = (b.ends i).limited limit :=
    b.modify_ends_self i _
  obtain ⟨answer, b', hread, hline, hclock, hanswer⟩ := Bench.perform_read_quiet _
    (hlimited ▸ hquiet.limited limit) hsize
  rw [hlimited] at hline hclock hanswer
  rw [← hdevice] at hread
  refine ⟨b', ?_, hline, hclock⟩
  unfold fill
  simp only [hset, hread]
  rcases hanswer with rfl | ⟨hempty, e, rfl, hkind⟩
  · rfl
  · change (b.ends i).input = [] at hempty
    simp only [hkind, hempty, List.take_nil, stage_nil]

/-- With no time left a session asks its device once, unless the frame is there from the start. -/
theorem gatherLoop_at_once (limit deadline fills : Nat) (hdevice : s.device = Bench.device i)
    (hquiet : (b.ends i).Quiet) (hsize : 0 < s.settings.readBufferSize)
    (hlate : deadline ≤ (b.ends i).clock) :
    ∃ chunk b', gatherLoop limit deadline (fills + 1) false s b = ⟨.ok (), s.stage chunk, b'⟩ ∧
      chunk ++ (b'.ends i).input = (b.ends i).input ∧
      chunk = if s.FrameReady limit then [] else
        (b.ends i).input.take s.settings.readBufferSize := by
  have hnow (b : Bench) : s.device.now b = (b.ends i).clock := by rw [hdevice]; rfl
  by_cases hready : s.FrameReady limit
  · refine ⟨[], b, ?_, rfl, (if_pos hready).symm⟩
    rw [gatherLoop_of_ready hready, stage_nil]
  · obtain ⟨b', hfill, hline, hclock⟩ :=
      fill_quiet hdevice hquiet hsize ⟨deadline - (b.ends i).clock⟩
    refine ⟨_, b', ?_, ?_, (if_neg hready).symm⟩
    · have hlate' : deadline ≤ s.device.now b' := by
        rw [hnow]
        exact Nat.le_trans hlate hclock
      unfold gatherLoop
      simp only [if_neg hready, hnow, Bool.false_eq_true, and_false, if_false, hfill]
      exact gatherLoop_of_late (s := s.stage _) hlate' limit fills
    · rw [hline, List.take_append_drop]

/-- A read with a timeout of zero hands out the first frame of what is staged and, unless that is
enough, of one read buffer from the line. The rest of all that is available stays in order. The
frame is the one that all of it begins with exactly if it is ready or the line is used up. -/
theorem read_at_once (limit : Nat) (hdevice : s.device = Bench.device i)
    (hquiet : (b.ends i).Quiet) (hsize : 0 < s.settings.readBufferSize)
    (htimeout : s.settings.timeout.nanos = 0) (hdeadline : s.TellsDeadline b)
    (hlimit : 0 < limit) :
    let line := (b.ends i).input
    let seen :=
      if s.FrameReady limit then s.staged else s.staged ++ line.take s.settings.readBufferSize
    let n := s.termination.frameLength seen limit
    ∃ s' b', s.read limit b = ⟨.ok ((s.staged ++ line).take n), s', b'⟩ ∧
      s'.staged ++ (b'.ends i).input = (s.staged ++ line).drop n ∧
      (n = s.termination.frameLength (s.staged ++ line) limit ↔
        s.termination.Ready seen limit ∨ line.length ≤ s.settings.readBufferSize) := by
  intro line seen n
  have hpast : s.device.now b + s.settings.timeout.nanos = (b.ends i).clock := by
    rw [htimeout, hdevice]
    rfl
  obtain ⟨chunk, gathered, hloop, hsplit, hchunk⟩ :=
    gatherLoop_at_once limit _ (limit + s.device.patience b + 1) hdevice hquiet hsize
      (Nat.le_of_eq hpast)
  have hseen : seen = s.staged ++ chunk := by
    rw [hchunk]
    by_cases hready : s.FrameReady limit
    · rw [if_pos hready, List.append_nil]
      exact if_pos hready
    · rw [if_neg hready]
      exact if_neg hready
  have hall : s.staged ++ line = seen ++ (gathered.ends i).input := by
    rw [hseen, List.append_assoc, hsplit]
  have hshort : n ≤ seen.length := Termination.frameLength_le _ _ _
  have hkept : ((s.stage chunk).restoreTimeout gathered).ends i =
      (gathered.ends i).limited s.settings.timeout := by
    rw [restoreTimeout, show (s.stage chunk).device = Bench.device i from hdevice]
    exact gathered.modify_ends_self i (·.limited s.settings.timeout)
  refine ⟨{ s.stage chunk with staged := seen.drop n }, (s.stage chunk).restoreTimeout gathered,
    ?_, ?_, ?_⟩
  · rw [read_of_gatherLoop hlimit hdeadline hloop, hall, List.take_append_of_le_length hshort]
    simp only [n, hseen]
    rfl
  · rw [hall, List.drop_append_of_le_length hshort, hkept]
    rfl
  · have hrest (hwait : ¬s.termination.Ready seen limit) :
        (gathered.ends i).input = [] ↔ line.length ≤ s.settings.readBufferSize := by
      have hstart : ¬s.FrameReady limit := fun hready ↦ hwait (by
        rwa [show seen = s.staged from if_pos hready])
      rw [if_neg hstart] at hchunk
      have hlengths := congrArg List.length hsplit
      rw [hchunk, List.length_append, List.length_take] at hlengths
      change min _ line.length + _ = line.length at hlengths
      rw [← List.length_eq_zero_iff]
      omega
    rw [hall, eq_comm, Termination.frameLength_append_eq_iff]
    by_cases hready : s.termination.Ready seen limit
    · exact iff_of_true (.inl hready) (.inl hready)
    · exact or_congr Iff.rfl (hrest hready)

/-- One byte is staged, and one read buffer of the line brings the terminator and a byte past it. -/
theorem read_at_once_line :
    let s : Session Bench :=
      { port := .onboard, device := Bench.device (.own .onboard), termination := .enabled 10,
        settings := { timeout := ⟨0⟩, readBufferSize := 3 }, staged := [97] }
    let b : Bench := Bench.inject {} (.own .onboard) [98, 10, 99, 100]
    ∃ s' b', s.read 8 b = ⟨.ok [97, 98, 10], s', b'⟩ ∧
      s'.staged ++ (b'.ends (.own .onboard)).input = [99, 100] := by
  intro s b
  obtain ⟨s', b', hread, hrest, -⟩ := read_at_once (s := s) (b := b) (i := .own .onboard) 8 rfl
    ⟨rfl, rfl⟩ (by decide) rfl (by decide) (by decide)
  exact ⟨s', b', hread, hrest⟩

/-- Two bytes are available, and the read buffer holds one. The read returns the first of them and
leaves the other on the line. -/
theorem zero_timeout_leaves_available :
    let s : Session Bench :=
      { port := .onboard, device := Bench.device (.own .onboard),
        settings := { timeout := ⟨0⟩, readBufferSize := 1 } }
    let b : Bench := Bench.inject {} (.own .onboard) [97, 98]
    let done := s.read 2 b
    (b.ends (.own .onboard)).Quiet ∧ s.TellsDeadline b ∧
      (s.staged ++ (b.ends (.own .onboard)).input).take
        (s.termination.frameLength (s.staged ++ (b.ends (.own .onboard)).input) 2) = [97, 98] ∧
      done.outcome = .ok [97] ∧ done.outcome ≠ .ok [97, 98] ∧
      done.session.staged = [] ∧ (done.world.ends (.own .onboard)).input = [98] := by
  refine ⟨⟨rfl, rfl⟩, ?_⟩
  decide

end Session

end SerialLine
