import SerialLine.Proofs.Loopback.Wire
/-!
# The lines of a bench are apart

A device at an end of a bench reads and writes the two ends of its own line only: whatever it is
asked, the other ends, the sockets and the plugs stay as they were (`Touches`), and what it answers
depends on the two ends alone. Not even their clocks matter, as long as the deadlines of reads can
be told: `Alike` benches may differ in the clocks of a line and in everything away from it, and
sessions over the line, operations, openings and closings do not notice (`Session.perform_alike`,
`Session.close_alike`, `Bench.openPort_alike`).
-/

set_option autoImplicit false

namespace SerialLine

/-- The end is one of the two of a line. -/
def EndId.On (line k : EndId) : Prop := k = line ∨ k = line.far

/-- An end without the time that it has spent. -/
def End.timeless (e : End) : End := { e with clock := 0 }

/-- The same end when more time has passed. -/
def End.later (e : End) (nanos : Nat) : End := { e with clock := e.clock + nanos }

namespace Bench

/-! ### What a device leaves alone -/

/-- Nothing has changed but the two ends of a line. -/
structure Touches (i : EndId) (b b' : Bench) : Prop where
  ends_eq : ∀ {k}, ¬ i.On k → b'.ends k = b.ends k
  socket_eq : b'.socket = b.socket
  unplugged_eq : b'.unplugged = b.unplugged
  pace_eq : b'.pace = b.pace

theorem Touches.refl (i : EndId) (b : Bench) : Touches i b b := ⟨fun _ ↦ rfl, rfl, rfl, rfl⟩

theorem Touches.trans {i : EndId} {b b' b'' : Bench} (h : Touches i b b')
    (h' : Touches i b' b'') : Touches i b b'' where
  ends_eq hk := (h'.ends_eq hk).trans (h.ends_eq hk)
  socket_eq := h'.socket_eq.trans h.socket_eq
  unplugged_eq := h'.unplugged_eq.trans h.unplugged_eq
  pace_eq := h'.pace_eq.trans h.pace_eq

theorem touches_put (b : Bench) (i : EndId) (e : End) : Touches i b (b.put i e) where
  ends_eq hk := b.put_ends_of_ne e fun h ↦ hk (.inl h)
  socket_eq := rfl
  unplugged_eq := rfl
  pace_eq := rfl

theorem touches_put_far (b : Bench) (i : EndId) (e : End) : Touches i b (b.put i.far e) where
  ends_eq hk := b.put_ends_of_ne e fun h ↦ hk (.inr h)
  socket_eq := rfl
  unplugged_eq := rfl
  pace_eq := rfl

theorem touches_readFrom (b : Bench) (i : EndId) (room : Nat) :
    Touches i b (b.readFrom i room).2 := by
  unfold readFrom
  simp only
  split
  · exact .refl i b
  · split
    · exact (b.touches_put i _).trans (touches_put _ i _)
    · exact b.touches_put i _
    · exact b.touches_put i _

theorem touches_writeTo (b : Bench) (i : EndId) (offered : Bytes) :
    Touches i b (b.writeTo i offered).2 := by
  rcases b.writeTo_cases i offered with hrefused | ⟨n, budget, -, htaken⟩
  · rw [hrefused]
    exact .refl i b
  · rw [htaken]
    exact (b.touches_put i _).trans (touches_put_far _ i _)

theorem touches_unlessFaulted {α : Type} {b : Bench} {i : EndId}
    {answer : Except IoError α × Bench} (h : Touches i b answer.2) :
    Touches i b (b.unlessFaulted i answer).2 := by
  unfold unlessFaulted
  split
  · exact .refl i b
  · exact h

/-- Whatever a device is asked, it touches nothing but its line. -/
theorem touches_perform (b : Bench) (i : EndId) (call : Call) :
    Touches i b ((device i).perform call b).2 := by
  cases call with
  | set change => exact b.touches_put i _
  | bytesToRead => exact touches_unlessFaulted (.refl i b)
  | clearInput => exact b.touches_put i _
  | clearOutput => exact .refl i b
  | read room =>
    exact touches_unlessFaulted ((b.touches_readFrom i room).trans (touches_put _ i _))
  | write offered =>
    exact touches_unlessFaulted ((b.touches_writeTo i offered).trans (touches_put _ i _))
  | flush => exact touches_unlessFaulted (b.touches_put i _)

/-- So does a list of exchanges, by induction on it. -/
theorem touches_of_follows {i : EndId} {b b' : Bench} {log : List Exchange}
    (h : (device i).Follows b log b') : Touches i b b' := by
  induction h with
  | nil => exact .refl i _
  | snoc _ call ih => exact ih.trans (touches_perform _ i call)

/-- Opening a port touches the line in its socket, and hands out the device at that end. -/
theorem touches_openPort (b : Bench) (p : Port) (settings : LineSettings) :
    Touches (b.socket p) b (opener.openPort p settings b).2 ∧
      ∀ opened, (opener.openPort p settings b).1 = .ok opened → opened = device (b.socket p) := by
  obtain ⟨log, hfollows, -⟩ := (device (b.socket p)).follows_applyChanges settings.changes b
  have htouches := touches_of_follows hfollows
  simp only [opener, Device.apply]
  split
  · exact ⟨.refl _ b, fun _ h ↦ by cases h⟩
  · rcases hanswer : (device (b.socket p)).applyChanges settings.changes b with ⟨e | _, b'⟩ <;>
      rw [hanswer] at htouches
    · exact ⟨htouches, fun _ h ↦ by cases h⟩
    · exact ⟨htouches, fun _ h ↦ (Except.ok.inj h).symm⟩

/-- An end is known by its clock, which nobody else's device tells. -/
theorem device_injective {i j : EndId} (h : device i = device j) : i = j := by
  refine Decidable.byContradiction fun hne ↦ ?_
  have hnow := congrArg (fun device ↦ device.now (({} : Bench).put i { clock := 1 })) h
  change ((({} : Bench).put i { clock := 1 }).ends i).clock =
    ((({} : Bench).put i { clock := 1 }).ends j).clock at hnow
  rw [put_ends_self, put_ends_of_ne _ _ (Ne.symm hne)] at hnow
  cases hnow

/-! ### What a device depends on -/

/-- Two benches have the same line but for the time that its ends have spent. -/
structure Alike (i : EndId) (b b' : Bench) : Prop where
  near_eq : (b'.ends i).timeless = (b.ends i).timeless
  far_eq : (b'.ends i.far).timeless = (b.ends i.far).timeless
  pace_eq : b'.pace = b.pace

theorem Alike.symm {i : EndId} {b b' : Bench} (h : Alike i b b') : Alike i b' b :=
  ⟨h.near_eq.symm, h.far_eq.symm, h.pace_eq.symm⟩

/-- They are alike, and the clock at the near end of the second one is ahead by a delay. -/
structure Ahead (i : EndId) (delay : Nat) (b b' : Bench) : Prop extends Alike i b b' where
  clock_eq : (b'.ends i).clock = (b.ends i).clock + delay

/-- The clock of one of them is ahead. -/
theorem Alike.ahead {i : EndId} {b b' : Bench} (h : Alike i b b') :
    ∃ delay, Ahead i delay b b' ∨ Ahead i delay b' b := by
  rcases Nat.le_total (b.ends i).clock (b'.ends i).clock with hle | hle
  · exact ⟨_, .inl ⟨h, (Nat.add_sub_cancel' hle).symm⟩⟩
  · exact ⟨_, .inr ⟨h.symm, (Nat.add_sub_cancel' hle).symm⟩⟩

namespace Ahead

variable {i : EndId} {delay : Nat} {b b' : Bench} (h : Ahead i delay b b')
include h

theorem near : b'.ends i = (b.ends i).later delay := by
  have hend : b'.ends i = { (b'.ends i).timeless with clock := (b'.ends i).clock } := rfl
  rw [hend, h.near_eq, h.clock_eq]
  rfl

theorem put (e : End) : Ahead i delay (b.put i e) (b'.put i (e.later delay)) where
  near_eq := by
    rw [put_ends_self, put_ends_self]
    rfl
  far_eq := by
    by_cases hloop : i.far = i
    · rw [hloop, put_ends_self, put_ends_self]
      rfl
    · rw [put_ends_of_ne _ _ hloop, put_ends_of_ne _ _ hloop, h.far_eq]
  pace_eq := h.pace_eq
  clock_eq := by
    rw [put_ends_self, put_ends_self]
    rfl

/-- The same change of the near ends, whatever time it is there. -/
theorem modify (change : End → End)
    (hchange : ∀ e, change (e.later delay) = (change e).later delay) :
    Ahead i delay (b.modify i change) (b'.modify i change) := by
  unfold Bench.modify
  rw [h.near, hchange]
  exact h.put _

/-- The same change of the far ends. -/
theorem modify_far (change : End → End)
    (hchange : ∀ e, (change e).timeless = change e.timeless)
    (hclock : ∀ e, (change e).clock = e.clock) :
    Ahead i delay (b.modify i.far change) (b'.modify i.far change) := by
  have hfar : (change (b'.ends i.far)).timeless = (change (b.ends i.far)).timeless := by
    rw [hchange, hchange, h.far_eq]
  by_cases hloop : i.far = i
  · have hends := h.clock_eq
    rw [hloop] at hfar ⊢
    refine ⟨⟨?_, ?_, h.pace_eq⟩, ?_⟩
    · rw [modify_ends_self, modify_ends_self, hfar]
    · rw [hloop, modify_ends_self, modify_ends_self, hfar]
    · rw [modify_ends_self, modify_ends_self, hclock, hclock, hends]
  · have hnear : i ≠ i.far := fun hsame ↦ hloop hsame.symm
    refine ⟨⟨?_, ?_, h.pace_eq⟩, ?_⟩
    · rw [modify_ends_of_ne _ _ hnear, modify_ends_of_ne _ _ hnear, h.near_eq]
    · rw [modify_ends_self, modify_ends_self, hfar]
    · rw [modify_ends_of_ne _ _ hnear, modify_ends_of_ne _ _ hnear, h.clock_eq]

theorem tick (nanos : Nat) : Ahead i delay (b.tick i nanos) (b'.tick i nanos) :=
  h.modify _ fun e ↦ by simp only [End.later, Nat.add_right_comm]

/-- A read gets the same bytes, and takes the same time. -/
theorem readFrom (room : Nat) : (b'.readFrom i room).1 = (b.readFrom i room).1 ∧
    Ahead i delay (b.readFrom i room).2 (b'.readFrom i room).2 := by
  unfold Bench.readFrom
  simp only [h.near]
  split
  · exact ⟨rfl, h⟩
  · have hline : ((b.ends i).later delay).input = (b.ends i).input ∧
        ((b.ends i).later delay).arriving = (b.ends i).arriving := ⟨rfl, rfl⟩
    rw [hline.1, hline.2]
    split
    · exact ⟨rfl, (h.put _).tick _⟩
    · exact ⟨rfl, h.put _⟩
    · exact ⟨rfl, h.put _⟩

/-- A write hands over the same bytes. -/
theorem writeTo (offered : Bytes) : (b'.writeTo i offered).1 = (b.writeTo i offered).1 ∧
    Ahead i delay (b.writeTo i offered).2 (b'.writeTo i offered).2 := by
  have hbudget : ((b.ends i).later delay).budget = (b.ends i).budget := rfl
  have hwritten : ∀ (n : Nat) (budget : Option Nat), Ahead i delay
      ((b.put i { b.ends i with budget }).modify i.far fun far ↦
        { far with input := far.input ++ offered.take n })
      ((b'.put i { (b.ends i).later delay with budget }).modify i.far fun far ↦
        { far with input := far.input ++ offered.take n }) :=
    fun n budget ↦ (h.put _).modify_far _ (fun _ ↦ rfl) fun _ ↦ rfl
  unfold Bench.writeTo
  simp only [h.near, hbudget]
  cases (b.ends i).budget <;> simp only <;> split
  · exact ⟨rfl, h⟩
  · exact ⟨rfl, hwritten _ _⟩
  · exact ⟨rfl, h⟩
  · exact ⟨rfl, hwritten _ _⟩

theorem unlessFaulted {α : Type} {answer answer' : Except IoError α × Bench}
    (hanswer : answer'.1 = answer.1 ∧ Ahead i delay answer.2 answer'.2) :
    (b'.unlessFaulted i answer').1 = (b.unlessFaulted i answer).1 ∧
      Ahead i delay (b.unlessFaulted i answer).2 (b'.unlessFaulted i answer').2 := by
  have hfaulted : (b'.ends i).faulted = (b.ends i).faulted := by
    rw [h.near]
    rfl
  unfold Bench.unlessFaulted
  rw [hfaulted]
  split
  · exact ⟨rfl, h⟩
  · exact hanswer

theorem perform (call : Call) :
    ((device i).perform call b').1 = ((device i).perform call b).1 ∧
      Ahead i delay ((device i).perform call b).2 ((device i).perform call b').2 := by
  cases call with
  | set change =>
    exact ⟨rfl, h.modify (fun e ↦ { e with settings := e.settings.record change }) fun _ ↦ rfl⟩
  | bytesToRead =>
    refine h.unlessFaulted ⟨?_, h⟩
    rw [h.near]
    rfl
  | clearInput => exact ⟨rfl, h.modify (fun e ↦ { e with input := [] }) fun _ ↦ rfl⟩
  | clearOutput => exact ⟨rfl, h⟩
  | read room =>
    obtain ⟨hanswer, hafter⟩ := h.readFrom room
    refine h.unlessFaulted ⟨hanswer, ?_⟩
    rw [h.pace_eq]
    exact hafter.tick b.pace
  | write offered =>
    obtain ⟨hanswer, hafter⟩ := h.writeTo offered
    refine h.unlessFaulted ⟨hanswer, ?_⟩
    rw [h.pace_eq]
    exact hafter.tick b.pace
  | flush =>
    exact h.unlessFaulted
      ⟨rfl, h.modify (fun e ↦ { e with flushes := e.flushes + 1 }) fun _ ↦ rfl⟩

end Ahead

/-- An end answers alike on benches with the same line, but for the delay of its clock. -/
theorem device_agreesAfter (i : EndId) (delay : Nat) :
    (device i).AgreesAfter (device i) delay (fun _ ↦ True) (Ahead i delay) where
  now_eq h := h.clock_eq
  patience_eq _ := rfl
  perform_eq {call b b'} _ h := by
    obtain ⟨hanswer, hafter⟩ := h.perform call
    exact ⟨((device i).perform call b).1, ((device i).perform call b).2,
      ((device i).perform call b').2, rfl, Prod.ext hanswer rfl, hafter⟩

/-- Opening a port comes to the same on benches with the same line in its socket and the same
plug. -/
theorem openPort_alike {b b' : Bench} {p : Port} (hsocket : b'.socket p = b.socket p)
    (hplug : b'.unplugged p = b.unplugged p) (h : Alike (b.socket p) b b')
    (settings : LineSettings) :
    (opener.openPort p settings b').1 = (opener.openPort p settings b).1 ∧
      Alike (b.socket p) (opener.openPort p settings b).2 (opener.openPort p settings b').2 := by
  have happlied : ∃ answer c c',
      (device (b.socket p)).applyChanges settings.changes b = (answer, c) ∧
        (device (b.socket p)).applyChanges settings.changes b' = (answer, c') ∧
          Alike (b.socket p) c c' := by
    obtain ⟨delay, hahead | hahead⟩ := h.ahead
    · obtain ⟨answer, c, c', hc, hc', halike⟩ :=
        (device_agreesAfter (b.socket p) delay).applyChanges (fun _ ↦ trivial) settings.changes
          hahead
      exact ⟨answer, c, c', hc, hc', halike.toAlike⟩
    · obtain ⟨answer, c', c, hc', hc, halike⟩ :=
        (device_agreesAfter (b.socket p) delay).applyChanges (fun _ ↦ trivial) settings.changes
          hahead
      exact ⟨answer, c, c', hc, hc', halike.toAlike.symm⟩
  obtain ⟨answer, c, c', hc, hc', halike⟩ := happlied
  simp only [opener, Device.apply, hsocket, hplug, hc, hc']
  split
  · exact ⟨rfl, h⟩
  · cases answer <;> exact ⟨rfl, halike⟩

end Bench

namespace Session

variable {α : Type}

/-- What an operation comes to over a line of two benches: the same outcome, the same session, and
the same line but for the time. -/
structure SameOn (i : EndId) (done done' : Result Bench α) : Prop where
  outcome_eq : done'.outcome = done.outcome
  session_eq : done'.session = done.session
  alike : Bench.Alike i done.world done'.world

theorem SameOn.symm {i : EndId} {done done' : Result Bench α} (h : SameOn i done done') :
    SameOn i done' done :=
  ⟨h.outcome_eq.symm, h.session_eq.symm, h.alike.symm⟩

theorem SameOn.of_agrees {i : EndId} {delay : Nat} {done done' : Result Bench α}
    (h : Result.Agrees (Bench.device i) (Bench.device i) (Bench.Ahead i delay) done done') :
    SameOn i done done' := by
  obtain ⟨outcome, t, b, b', rfl, rfl, hdevice, hahead⟩ := h
  have hsame : t.withDevice (Bench.device i) = t := by rw [← hdevice]; rfl
  exact ⟨rfl, hsame, hahead.toAlike⟩

variable {s : Session Bench} {i : EndId} {b b' : Bench}

theorem device_agreesAfter (hs : s.device = Bench.device i) (delay : Nat) :
    s.device.AgreesAfter (Bench.device i) delay (fun _ ↦ True) (Bench.Ahead i delay) := by
  rw [hs]
  exact Bench.device_agreesAfter i delay

theorem withDevice_self (hs : s.device = Bench.device i) : s.withDevice (Bench.device i) = s := by
  rw [← hs]
  rfl

/-- An operation comes to the same, unless it is a read of which the deadline can be told on one of
the benches only. -/
theorem perform_alike (hs : s.device = Bench.device i) (h : Bench.Alike i b b') {op : Operation}
    (hclock : ∀ limit, op = .read limit → limit ≠ 0 →
      (clockLimit ≤ s.device.now b + s.settings.timeout.nanos ↔
        clockLimit ≤ s.device.now b' + s.settings.timeout.nanos)) :
    SameOn i (s.perform b op) (s.perform b' op) := by
  have hagrees : ∀ {delay c c'}, Bench.Ahead i delay c c' →
      (∀ limit, op = .read limit → limit ≠ 0 →
        (clockLimit ≤ s.device.now c + s.settings.timeout.nanos ↔
          clockLimit ≤ s.device.now c' + s.settings.timeout.nanos)) →
      SameOn i (s.perform c op) (s.perform c' op) := by
    intro delay c c' hahead htold
    have hdone := perform_agreesAfter ((device_agreesAfter hs delay).of_all op.Makes) hahead
      (by rwa [hs] at htold ⊢)
    rw [withDevice_self hs, hs] at hdone
    exact .of_agrees hdone
  obtain ⟨delay, hahead | hahead⟩ := h.ahead
  · exact hagrees hahead hclock
  · exact (hagrees hahead fun limit hop hlimit ↦ (hclock limit hop hlimit).symm).symm

theorem close_alike (hs : s.device = Bench.device i) (h : Bench.Alike i b b') :
    SameOn i (s.close b) (s.close b') := by
  have hagrees : ∀ {delay c c'}, Bench.Ahead i delay c c' → SameOn i (s.close c) (s.close c') := by
    intro delay c c' hahead
    have hdone := close_agrees (device_agreesAfter hs delay) trivial (fun _ ↦ trivial) trivial
      hahead
    rw [withDevice_self hs, hs] at hdone
    exact .of_agrees hdone
  obtain ⟨delay, hahead | hahead⟩ := h.ahead
  · exact hagrees hahead
  · exact (hagrees hahead).symm

theorem touches_perform (hs : s.device = Bench.device i) (b : Bench) (op : Operation) :
    Bench.Touches i b (s.perform b op).world :=
  Bench.touches_of_follows (hs ▸ s.follows_exchanges b op)

theorem touches_close (hs : s.device = Bench.device i) (b : Bench) :
    Bench.Touches i b (s.close b).world := by
  obtain ⟨log, hlog⟩ := s.follows_close b
  exact Bench.touches_of_follows (hs ▸ hlog)

end Session

end SerialLine
