import SerialLine.Proofs.Loopback.Echo
/-!
# Round trips on a loopback line

A session at a loopback end of its own writes a payload, flushes, and reads. Without a terminator
one read returns the payload; with one, repeated reads return its pieces in order (`round_trip`).
The session is then as it was, but that both of its counters have grown by the length of the
payload.

A read gives up when its timeout has passed, and hands out what has arrived by then. So the timeout
has to outlast the reads of the device that a frame takes (`Session.Outlasts`); one that does not
may cut the payload short (`short_timeout_cuts_payload`). And a read does not even start if the
clock cannot tell its deadline (`Session.TellsDeadline`). `tellsDeadline_of_reads` gives a bound on
the clock at which this happens to none of the reads that return something.
-/

set_option autoImplicit false

namespace SerialLine

namespace Session

/-! ### Repeated reads -/

/-- Reads of at most so many bytes, one after another, that return the given pieces. -/
inductive Reads {World : Type} (limit : Nat) :
    Session World → World → List Bytes → Session World → World → Prop
  | nil (s : Session World) (w : World) : Reads limit s w [] s w
  | cons {s s' s'' : Session World} {w w' w'' : World} {piece : Bytes} {pieces : List Bytes}
      (read : s.read limit w = ⟨.ok piece, s', w'⟩) (reads : Reads limit s' w' pieces s'' w'') :
      Reads limit s w (piece :: pieces) s'' w''

variable {p : Port} {e : End} {s : Session Bench}

/-- Repeated reads return the pieces of what is staged or on the line, by induction on the pieces:
each read hands out the first frame of what the reads before it have left. -/
theorem reads_own {t : UInt8} {limit : Nat} {pieces : List Bytes}
    (hdevice : s.device = Bench.device (.own p)) (hworks : e.Works)
    (hsize : 0 < s.settings.readBufferSize) (htermination : s.termination = .enabled t)
    (hlimit : 0 < limit) (b : Bench)
    (hsplits : Termination.Splits t limit pieces (s.staged ++ e.input))
    (hdeadlines : ∀ returned s' b', s.Reads limit (b.put (.own p) e) returned s' b' →
      returned.flatten.length < (s.staged ++ e.input).length → s'.TellsDeadline b')
    (htime : ∀ piece ∈ pieces, s.Outlasts b piece.length) :
    ∃ e' : End, e'.Works ∧ e'.input = [] ∧
      s.Reads limit (b.put (.own p) e) pieces
        { s with staged := [], received := s.received + e.input.length }
        (b.put (.own p) e') := by
  induction pieces generalizing s e with
  | nil =>
    obtain ⟨hstaged, hline⟩ := List.append_eq_nil_iff.mp ((hsplits.eq_nil_iff hlimit).mp rfl)
    refine ⟨e, hworks, hline, ?_⟩
    rw [hline, List.length_nil, Nat.add_zero, ← hstaged]
    exact .nil s _
  | cons piece pieces ih =>
    have hsome := mt (hsplits.eq_nil_iff hlimit).mpr (List.cons_ne_nil piece pieces)
    obtain ⟨hpiece, hsplits'⟩ := hsplits.head_eq
    rw [← htermination] at hpiece hsplits'
    obtain rfl := hpiece
    obtain ⟨hfirst, hothers⟩ := List.forall_mem_cons.mp htime
    rw [Termination.length_take_frameLength] at hfirst
    obtain ⟨staged, received, left, hleft, hrest, hcount, -, hread⟩ :=
      read_own hdevice hworks hsize hlimit b
        (hdeadlines [] s _ (.nil s _) (List.length_pos_iff.mpr hsome)) hfirst
    have hlength := congrArg List.length (List.take_append_drop
      (s.termination.frameLength (s.staged ++ e.input) limit) (s.staged ++ e.input))
    rw [← hrest, List.length_append] at hlength
    obtain ⟨e', hworks', hline, hreads⟩ :=
      ih (s := { s with staged, received }) hdevice hleft hsize htermination (hrest ▸ hsplits')
        (fun returned s' b' hreads hlt ↦ hdeadlines _ s' b' (.cons hread hreads) (by
          change returned.flatten.length < (staged ++ left.input).length at hlt
          rw [List.flatten_cons, List.length_append]
          omega))
        hothers
    refine ⟨e', hworks', hline, .cons hread ?_⟩
    rw [← hcount]
    exact hreads

/-- The clock can tell the deadlines of all reads that return something, if it could tell that of a
read that starts when everything has left the line. -/
theorem tellsDeadline_of_reads {limit : Nat} {pieces : List Bytes} {s' : Session Bench}
    {b' : Bench} (hdevice : s.device = Bench.device (.own p)) (hworks : e.Works)
    (hsize : 0 < s.settings.readBufferSize) (hlimit : 0 < limit) (b : Bench)
    (htime : s.Outlasts b (min limit (s.staged ++ e.input).length))
    (hclock : e.clock + b.pace * e.input.length + s.settings.timeout.nanos < clockLimit)
    (hreads : s.Reads limit (b.put (.own p) e) pieces s' b')
    (hlength : pieces.flatten.length < (s.staged ++ e.input).length) : s'.TellsDeadline b' := by
  induction pieces generalizing s e with
  | nil =>
    cases hreads
    exact (tellsDeadline_own hdevice b).mpr (by omega)
  | cons piece pieces ih =>
    cases hreads with
    | cons hfirst hreads =>
      obtain ⟨staged, received, left, hleft, hrest, -, hspent, hread⟩ :=
        read_own hdevice hworks hsize hlimit b ((tellsDeadline_own hdevice b).mpr (by omega))
          (htime.mono (List.length_take ▸ s.termination.frameLength_le_length _ _))
      obtain ⟨houtcome, rfl, rfl⟩ := Result.mk.inj (hread.symm.trans hfirst)
      obtain rfl := Outcome.ok.inj houtcome
      have hdata := congrArg List.length (List.take_append_drop
        (s.termination.frameLength (s.staged ++ e.input) limit) (s.staged ++ e.input))
      rw [← hrest, List.length_append] at hdata
      rw [List.flatten_cons, List.length_append] at hlength
      have hmore : pieces.flatten.length < (staged ++ left.input).length := by omega
      have hclock' := hspent (List.length_pos_iff.mp (Nat.zero_lt_of_lt hmore))
      refine ih (s := { s with staged, received }) hdevice hleft hsize (htime.mono ?_) ?_ hreads
        hmore
      · show min limit (staged ++ left.input).length ≤ _
        omega
      · show left.clock + b.pace * left.input.length + s.settings.timeout.nanos < clockLimit
        omega

/-! ### The whole way -/

/-- A session at a working loopback end of its own with nothing under way. No bytes are staged,
pending or on the line. -/
structure Idle (s : Session Bench) (p : Port) (b : Bench) : Prop where
  device_eq : s.device = Bench.device (.own p)
  staged_eq : s.staged = []
  pending_eq : s.pending = []
  readBufferSize_pos : 0 < s.settings.readBufferSize
  writeBufferSize_pos : 0 < s.settings.writeBufferSize
  works : (b.ends (.own p)).Works
  line_eq : (b.ends (.own p)).input = []

/-- Counts bytes that have gone out and come back. -/
def carried (s : Session Bench) (bytes : Nat) : Session Bench :=
  { s with sent := s.sent + bytes, received := s.received + bytes }

theorem Idle.carried {b : Bench} (h : s.Idle p b) (bytes : Nat) (hworks : e.Works)
    (hline : e.input = []) : (s.carried bytes).Idle p (b.put (.own p) e) where
  device_eq := h.device_eq
  staged_eq := h.staged_eq
  pending_eq := h.pending_eq
  readBufferSize_pos := h.readBufferSize_pos
  writeBufferSize_pos := h.writeBufferSize_pos
  works := (b.put_ends_self (.own p) e).symm ▸ hworks
  line_eq := (b.put_ends_self (.own p) e).symm ▸ hline

/-- Without a terminator, a read of as many bytes as there are on the line returns them all. -/
theorem read_all_own (hdevice : s.device = Bench.device (.own p)) (hworks : e.Works)
    (hsize : 0 < s.settings.readBufferSize) (htermination : s.termination = .disabled)
    (hstaged : s.staged = []) (b : Bench) (hdeadline : s.TellsDeadline (b.put (.own p) e))
    (htime : s.Outlasts b e.input.length) :
    ∃ e' : End, e'.Works ∧ e'.input = [] ∧
      s.read e.input.length (b.put (.own p) e) =
        ⟨.ok e.input, { s with received := s.received + e.input.length }, b.put (.own p) e'⟩ := by
  rcases Nat.eq_zero_or_pos e.input.length with hzero | hpos
  · have hline := List.length_eq_zero_iff.mp hzero
    refine ⟨e, hworks, hline, ?_⟩
    rw [hline]
    exact if_pos rfl
  · obtain ⟨staged, received, e', hworks', hrest, hcount, -, hread⟩ :=
      read_own hdevice hworks hsize hpos b hdeadline
        (htime.mono (s.termination.frameLength_le_limit _ _))
    rw [hstaged, List.nil_append, htermination, Termination.frameLength_disabled, Nat.min_self]
      at hrest hread
    rw [List.drop_length] at hrest
    rw [List.take_length] at hread
    obtain ⟨rfl, hline⟩ := List.append_eq_nil_iff.mp hrest
    refine ⟨e', hworks', hline, hread.trans ?_⟩
    rw [hline, List.length_nil, Nat.add_zero] at hcount
    rw [hcount, ← hstaged, ← htermination]

/-- A session at a loopback end of its own with nothing under way writes a payload and flushes.
Both succeed, in either mode and whatever the sizes of the buffers. If no terminator is set, a read
of the length of the payload returns exactly the payload. If one is, repeated reads of any length
return the only split of the payload into pieces that end at the first terminator or at that length,
where the last piece may be shorter. Then nothing is staged, pending or on the line, and both
counters have grown by the length of the payload. The deadline of each read that is to return
something has to be representable, and the timeout has to outlast the reads of the device for it. -/
theorem round_trip {b : Bench} (h : s.Idle p b) (payload : Bytes) :
    ∃ s₁ b₁ s₂ b₂, s.write payload b = ⟨.ok payload.length, s₁, b₁⟩ ∧
      s₁.flush b₁ = ⟨.ok (), s₂, b₂⟩ ∧
      (s.termination = .disabled → s₂.TellsDeadline b₂ → s.Outlasts b payload.length →
        ∃ b₃, s₂.read payload.length b₂ = ⟨.ok payload, s.carried payload.length, b₃⟩ ∧
          (s.carried payload.length).Idle p b₃) ∧
      ∀ t limit, s.termination = .enabled t → 0 < limit →
        ∃ pieces, Termination.Splits t limit pieces payload ∧
          (∀ others, Termination.Splits t limit others payload → others = pieces) ∧
          ((∀ returned s' b', s₂.Reads limit b₂ returned s' b' →
              returned.flatten.length < payload.length → s'.TellsDeadline b') →
            (∀ piece ∈ pieces, s.Outlasts b piece.length) →
            ∃ b₃, s₂.Reads limit b₂ pieces (s.carried payload.length) b₃ ∧
              (s.carried payload.length).Idle p b₃) := by
  obtain ⟨s₁, b₁, flushed, hflushed, hline, hwrite, hflush⟩ :=
    write_flush_own h.device_eq h.works h.writeBufferSize_pos h.pending_eq payload b
  rw [b.put_ends] at hwrite
  rw [h.line_eq, List.nil_append] at hline
  obtain rfl := hline.symm
  refine ⟨s₁, b₁, _, _, hwrite, hflush, fun htermination hdeadline htime ↦ ?_,
    fun t limit htermination hlimit ↦ ?_⟩
  · obtain ⟨e, hworks, hempty, hread⟩ := read_all_own
      (s := { s with sent := s.sent + flushed.input.length }) h.device_eq hflushed
      h.readBufferSize_pos htermination h.staged_eq b hdeadline htime
    exact ⟨_, hread, h.carried _ hworks hempty⟩
  · obtain ⟨pieces, hsplits⟩ :=
      Termination.exists_splits t hlimit flushed.input.length flushed.input (Nat.le_refl _)
    refine ⟨pieces, hsplits, fun others hothers ↦ hothers.unique hlimit hsplits,
      fun hdeadlines htime ↦ ?_⟩
    have hdata : s.staged ++ flushed.input = flushed.input := by
      rw [h.staged_eq, List.nil_append]
    obtain ⟨e, hworks, hempty, hreads⟩ := reads_own
      (s := { s with sent := s.sent + flushed.input.length }) h.device_eq hflushed
      h.readBufferSize_pos htermination hlimit b (hdata.symm ▸ hsplits) (hdata.symm ▸ hdeadlines)
      htime
    rw [← h.staged_eq] at hreads
    exact ⟨_, hreads, h.carried _ hworks hempty⟩

/-- Three bytes come back in two pieces, the first of which ends at the terminator. The line is slow,
and the timeout just outlasts the two reads of the device that a piece of two bytes takes. -/
theorem round_trip_two_pieces :
    let s : Session Bench :=
      { port := .onboard, device := Bench.device (.own .onboard), termination := .enabled 10,
        settings := { timeout := ⟨3⟩, writeMode := .flushWhenFull, readBufferSize := 1,
                      writeBufferSize := 2 } }
    let b : Bench := { pace := 2 }
    s.Idle .onboard b ∧ ∃ s₁ b₁ s₂ b₂ b₃, s.write [97, 10, 98] b = ⟨.ok 3, s₁, b₁⟩ ∧
      s₁.flush b₁ = ⟨.ok (), s₂, b₂⟩ ∧ s₂.Reads 2 b₂ [[97, 10], [98]] (s.carried 3) b₃ ∧
      (s.carried 3).Idle .onboard b₃ := by
  intro s b
  have hidle : s.Idle .onboard b :=
    ⟨rfl, rfl, rfl, by decide, by decide, ⟨rfl, rfl, rfl⟩, rfl⟩
  obtain ⟨s₁, b₁, s₂, b₂, hwrite, hflush, -, hsplit⟩ := round_trip hidle [97, 10, 98]
  have hdeadlines : ∀ pieces s' b', s₂.Reads 2 b₂ pieces s' b' →
      pieces.flatten.length < 3 → s'.TellsDeadline b' := by
    intro pieces s' b' hreads hlength
    rw [← b₂.put_ends (.own .onboard)] at hreads
    obtain ⟨-, rfl, rfl⟩ := Result.mk.inj hwrite
    obtain ⟨-, rfl, rfl⟩ := Result.mk.inj hflush
    exact tellsDeadline_of_reads (p := .onboard) rfl ⟨rfl, rfl, rfl⟩ (by decide) (by decide) _
      (by decide +kernel) (by decide +kernel) hreads hlength
  have hsplits : Termination.Splits 10 2 [[97, 10], [98]] [97, 10, 98] :=
    .cons (.inl ⟨[97], rfl, by decide, by decide⟩) (.last (by decide) (by decide) (by decide))
  obtain ⟨pieces, -, hunique, hreads⟩ := hsplit 10 2 rfl (by decide)
  obtain rfl := hunique _ hsplits
  obtain ⟨b₃, hreads, hidle'⟩ := hreads hdeadlines (by decide +kernel)
  exact ⟨hidle, s₁, b₁, s₂, b₂, b₃, hwrite, hflush, hreads, hidle'⟩

/-- A timeout that does not outlast the reads of the device. Four bytes are on the line, and the
read returns the first of them. -/
theorem short_timeout_cuts_payload :
    let s : Session Bench :=
      { port := .onboard, device := Bench.device (.own .onboard),
        settings := { timeout := ⟨2⟩, readBufferSize := 1 } }
    let b : Bench := { pace := 100 }
    let written := s.write [97, 98, 99, 100] b
    let flushed := written.session.flush written.world
    let returned := flushed.session.read 4 flushed.world
    s.Idle .onboard b ∧ 0 < s.settings.timeout.nanos ∧ s.termination = .disabled ∧
      written.outcome = .ok 4 ∧ flushed.outcome = .ok () ∧
      flushed.session.TellsDeadline flushed.world ∧
      returned.outcome = .ok [97] ∧ returned.outcome ≠ .ok [97, 98, 99, 100] := by
  refine ⟨⟨rfl, rfl, rfl, by decide, by decide, ⟨rfl, rfl, rfl⟩, rfl⟩, by decide, rfl, ?_⟩
  decide +kernel

end Session

end SerialLine
