import SerialLine.Proofs.Session.Pushes
import SerialLine.Proofs.Splitting
import SerialLine.Session
/-!
# Gathering bytes from a device

`Session.Fills`, `Session.Gathers` and `Session.ReadEnds` list what a fill, a gathering and a read
can come to, with one constructor for each way in which they go on or end. `fill_fills`,
`gatherLoop_gathers` and `read_ends` show that they come to nothing else, over every device.

What they mean for a session is read off the lists. The bytes that a device delivers are staged at
the end of what is staged already, whether a gathering comes to a good end or not
(`Gathers.receives`). A read that succeeds then hands out a frame from the front, and one that fails
hands out nothing (`read_receives`).
-/

set_option autoImplicit false

namespace SerialLine

namespace Session

variable {World : Type} {s : Session World} {wait : Duration} {limit : Nat} {w : World}
  {done : Result World Unit}

/-! ### One chunk -/

/-- Stages bytes that the device has delivered. -/
def stage (s : Session World) (bytes : Bytes) : Session World :=
  { s with staged := s.staged ++ bytes, received := s.received + bytes.length }

theorem stage_nil (s : Session World) : s.stage [] = s := by
  rw [stage, List.append_nil, List.length_nil, Nat.add_zero]

theorem stage_stage (s : Session World) (first second : Bytes) :
    (s.stage first).stage second = s.stage (first ++ second) := by
  simp only [stage, List.append_assoc, List.length_append, Nat.add_assoc]

/-- What a fill comes to. The device refuses the time that it is given, or it is asked for a chunk.
Then it delivers some bytes, is not ready to, or fails. -/
inductive Fills (s : Session World) (wait : Duration) (w : World) : Result World Unit → Prop
  | refused {e : IoError} {v : World}
      (told : s.device.perform (.set (.timeout wait)) w = (.error e, v)) :
      Fills s wait w ⟨.error (.ofDevice e), s, v⟩
  | staged {v v' : World} {bytes : Bytes}
      (told : s.device.perform (.set (.timeout wait)) w = (.ok (), v))
      (asked : s.device.perform (.read s.settings.readBufferSize) v = (.ok bytes, v')) :
      Fills s wait w ⟨.ok (), s.stage bytes, v'⟩
  | silent {v v' : World} {e : IoError}
      (told : s.device.perform (.set (.timeout wait)) w = (.ok (), v))
      (asked : s.device.perform (.read s.settings.readBufferSize) v = (.error e, v'))
      (soft : ¬e.IsFault) : Fills s wait w ⟨.ok (), s, v'⟩
  | failed {v v' : World} {e : IoError}
      (told : s.device.perform (.set (.timeout wait)) w = (.ok (), v))
      (asked : s.device.perform (.read s.settings.readBufferSize) v = (.error e, v'))
      (fault : e.IsFault) : Fills s wait w ⟨.error (.io e), s, v'⟩

theorem fill_fills (s : Session World) (wait : Duration) (w : World) :
    Fills s wait w (s.fill wait w) := by
  unfold fill
  rcases told : s.device.perform (.set (.timeout wait)) w with ⟨e | _, v⟩
  · exact .refused told
  · simp only
    rcases asked : s.device.perform (.read s.settings.readBufferSize) v with ⟨e | bytes, v'⟩
    · simp only
      split
      · next hkind => exact .silent told asked fun hfault ↦ hfault.1 hkind
      · next hkind => exact .silent told asked fun hfault ↦ hfault.2.1 hkind
      · next hkind => exact .silent told asked fun hfault ↦ hfault.2.2 hkind
      · next htime hblock hagain => exact .failed told asked ⟨htime, hblock, hagain⟩
    · exact .staged told asked

/-- A fill stages some bytes or nothing, and changes nothing else about the session. -/
theorem Fills.session_eq (h : Fills s wait w done) : ∃ bytes, done.session = s.stage bytes := by
  cases h with
  | staged => exact ⟨_, rfl⟩
  | _ => exact ⟨[], s.stage_nil.symm⟩

/-! ### A gathering -/

/-- A gathering stops where it starts if the frame is ready. -/
theorem gatherLoop_of_ready (h : s.FrameReady limit) (deadline fills : Nat) (attempted : Bool)
    (w : World) : gatherLoop limit deadline fills attempted s w = ⟨.ok (), s, w⟩ := by
  cases fills with
  | zero => rfl
  | succ fills => rw [gatherLoop, if_pos h]

/-- It does so as well once the device has been asked and the deadline has passed. -/
theorem gatherLoop_of_late {deadline : Nat} (h : deadline ≤ s.device.now w) (limit fills : Nat) :
    gatherLoop limit deadline fills true s w = ⟨.ok (), s, w⟩ := by
  have hspent : deadline - s.device.now w = 0 := Nat.sub_eq_zero_of_le h
  cases fills with
  | zero => rfl
  | succ fills =>
    unfold gatherLoop
    simp only [hspent, and_self, if_true, ite_self]

/-- What a gathering comes to. It stops, or it fills because the frame is not ready and then goes on
or fails. -/
inductive Gathers (limit : Nat) : Session World → World → Result World Unit → Prop
  | stopped {s : Session World} {w : World} : Gathers limit s w ⟨.ok (), s, w⟩
  | filled {s t : Session World} {wait : Duration} {w v : World} {done : Result World Unit}
      (short : ¬s.FrameReady limit) (fill : Fills s wait w ⟨.ok (), t, v⟩)
      (rest : Gathers limit t v done) : Gathers limit s w done
  | failed {s t : Session World} {wait : Duration} {w v : World} {e : SerialError}
      (short : ¬s.FrameReady limit) (fill : Fills s wait w ⟨.error e, t, v⟩) :
      Gathers limit s w ⟨.error e, t, v⟩

/-- By induction on the fills that are left. -/
theorem gatherLoop_gathers (limit deadline fills : Nat) (attempted : Bool) (s : Session World)
    (w : World) : Gathers limit s w (gatherLoop limit deadline fills attempted s w) := by
  induction fills generalizing attempted s w with
  | zero => exact .stopped
  | succ fills ih =>
    unfold gatherLoop
    split
    · exact .stopped
    · next short =>
      simp only
      split
      · exact .stopped
      · have fill := s.fill_fills ⟨deadline - s.device.now w⟩ w
        rcases hfill : s.fill ⟨deadline - s.device.now w⟩ w with ⟨outcome, t, v⟩
        rw [hfill] at fill
        cases outcome with
        | ok _ => exact .filled short fill (ih true t v)
        | error e => exact .failed short fill
        | halt reason => cases fill

namespace Gathers

theorem of_gatherLoop {deadline fills : Nat} {attempted : Bool}
    (h : gatherLoop limit deadline fills attempted s w = done) : Gathers limit s w done :=
  h ▸ gatherLoop_gathers limit deadline fills attempted s w

/-- A gathering ends. -/
theorem ne_halt {reason : Halt} {t : Session World} {v : World} :
    ¬Gathers limit s w ⟨.halt reason, t, v⟩ := by
  generalize hdone : (⟨.halt reason, t, v⟩ : Result World Unit) = done
  intro h
  induction h with
  | filled _ _ _ ih => exact ih hdone
  | _ => cases hdone

/-- It stages some bytes, and changes nothing else about the session. -/
theorem session_eq (h : Gathers limit s w done) : ∃ bytes, done.session = s.stage bytes := by
  induction h with
  | stopped => exact ⟨[], (stage_nil _).symm⟩
  | filled _ fill _ ih =>
    obtain ⟨first, rfl⟩ := fill.session_eq
    obtain ⟨second, hsecond⟩ := ih
    exact ⟨first ++ second, hsecond.trans (stage_stage _ first second)⟩
  | failed _ fill => exact fill.session_eq

end Gathers

/-! ### A read -/

/-- What a read comes to. It is for nothing, or the clock cannot tell its deadline, or it gives the
device its timeout back once a gathering is over. -/
inductive ReadEnds (s : Session World) (limit : Nat) (w : World) : Result World Bytes → Prop
  | nothing (zero : limit = 0) : ReadEnds s limit w ⟨.ok [], s, w⟩
  | overflow (pos : limit ≠ 0) (late : clockLimit ≤ s.device.now w + s.settings.timeout.nanos) :
      ReadEnds s limit w ⟨.halt .deadlineOverflow, s, w⟩
  | frame {t : Session World} {v : World}
      (told : s.device.now w + s.settings.timeout.nanos < clockLimit)
      (gathered : gatherLoop limit (s.device.now w + s.settings.timeout.nanos)
        (limit + s.device.patience w + 2) false s w = ⟨.ok (), t, v⟩) :
      ReadEnds s limit w ⟨.ok (t.staged.take (t.frameLength limit)),
        { t with staged := t.staged.drop (t.frameLength limit) }, t.restoreTimeout v⟩
  | failed {e : SerialError} {t : Session World} {v : World}
      (told : s.device.now w + s.settings.timeout.nanos < clockLimit)
      (gathered : gatherLoop limit (s.device.now w + s.settings.timeout.nanos)
        (limit + s.device.patience w + 2) false s w = ⟨.error e, t, v⟩) :
      ReadEnds s limit w ⟨.error e, t, t.restoreTimeout v⟩

theorem read_ends (s : Session World) (limit : Nat) (w : World) :
    ReadEnds s limit w (s.read limit w) := by
  unfold read
  split
  · next zero => exact .nothing zero
  · next pos =>
    simp only
    split
    · next late => exact .overflow pos late
    · next told =>
      rcases gathered : gatherLoop limit (s.device.now w + s.settings.timeout.nanos)
        (limit + s.device.patience w + 2) false s w with ⟨outcome, t, v⟩
      cases outcome with
      | ok _ => exact .frame (Nat.lt_of_not_le told) gathered
      | error e => exact .failed (Nat.lt_of_not_le told) gathered
      | halt reason => exact absurd (Gathers.of_gatherLoop gathered) Gathers.ne_halt

/-! ### What is received -/

variable {log : World → List Exchange}

/-- Bytes have been added at the end of what was staged and are counted; nothing else about the
session has changed. A device that keeps a log has delivered these bytes. -/
def Receives (log : World → List Exchange) (s : Session World) (w : World) (s' : Session World)
    (w' : World) : Prop :=
  ∃ bytes, s' = { s with staged := s.staged ++ bytes, received := s.received + bytes.length } ∧
    (s.device.Logs log → delivered (log w') = delivered (log w) ++ bytes)

theorem Receives.of_silent {w w' : World}
    (h : s.device.Logs log → delivered (log w') = delivered (log w)) : Receives log s w s w' :=
  ⟨[], by rw [List.append_nil]; rfl, fun hlog ↦ by rw [h hlog, List.append_nil]⟩

theorem Receives.refl (s : Session World) (w : World) : Receives log s w s w :=
  .of_silent fun _ ↦ rfl

theorem Receives.trans {s s' s'' : Session World} {w w' w'' : World}
    (hfirst : Receives log s w s' w') (hsecond : Receives log s' w' s'' w'') :
    Receives log s w s'' w'' := by
  obtain ⟨first, rfl, hlog⟩ := hfirst
  obtain ⟨second, rfl, hlog'⟩ := hsecond
  refine ⟨first ++ second, ?_, fun h ↦ by rw [hlog' h, hlog h, List.append_assoc]⟩
  simp only [List.append_assoc, List.length_append, Nat.add_assoc]

/-- Setting the timeout of the device delivers nothing. -/
theorem setTimeout_receives (s : Session World) (wait : Duration) (w : World) :
    Receives log s w s (s.device.perform (.set (.timeout wait)) w).2 :=
  .of_silent fun hlog ↦
    (hlog.delivered_perform (.set (.timeout wait)) w).trans (List.append_nil _)

/-- Nor does asking for a chunk if the answer is an error. -/
theorem asked_receives {e : IoError} {room : Nat} {v : World}
    (asked : s.device.perform (.read room) w = (.error e, v)) : Receives log s w s v := by
  refine .of_silent fun hlog ↦ ?_
  have hlogged := hlog.delivered_perform (.read room) w
  rw [Device.exchange, asked] at hlogged
  exact hlogged.trans (List.append_nil _)

theorem Fills.receives (h : Fills s wait w done) : Receives log s w done.session done.world := by
  have htold : Receives log s w s _ := s.setTimeout_receives wait w
  cases h with
  | refused told =>
    rw [told] at htold
    exact htold
  | @staged v v' bytes told asked =>
    rw [told] at htold
    refine htold.trans ⟨bytes, rfl, fun hlog ↦ ?_⟩
    have hlogged := hlog.delivered_perform (.read s.settings.readBufferSize) v
    rw [Device.exchange, asked] at hlogged
    exact hlogged
  | silent told asked | failed told asked =>
    rw [told] at htold
    exact htold.trans (asked_receives asked)

theorem Gathers.receives (h : Gathers limit s w done) :
    Receives log s w done.session done.world := by
  induction h with
  | stopped => exact .refl _ _
  | filled _ fill _ ih => exact fill.receives.trans ih
  | failed _ fill => exact fill.receives

/-- A read gathers, and then hands out a frame from the front of what is staged if it is to end
well. If it is not, everything it has gathered stays where it is. -/
theorem read_receives (log : World → List Exchange) (s : Session World) (limit : Nat) (w : World) :
    ∃ t, Receives log s w t (s.read limit w).world ∧
      ((∃ n, n ≤ limit ∧ (s.read limit w).outcome = .ok (t.staged.take n) ∧
          (s.read limit w).session = { t with staged := t.staged.drop n }) ∨
        ((∀ frame, (s.read limit w).outcome ≠ .ok frame) ∧ (s.read limit w).session = t)) := by
  have hends := s.read_ends limit w
  generalize s.read limit w = done at hends ⊢
  cases hends with
  | nothing => exact ⟨s, .refl s w, .inl ⟨0, Nat.zero_le _, rfl, rfl⟩⟩
  | overflow => exact ⟨s, .refl s w, .inr ⟨fun _ ↦ by simp, rfl⟩⟩
  | @frame t v _ gathered =>
    have hgathers := Gathers.of_gatherLoop gathered
    exact ⟨t, hgathers.receives.trans (t.setTimeout_receives t.settings.timeout v),
      .inl ⟨t.frameLength limit, t.termination.frameLength_le_limit _ _, rfl, rfl⟩⟩
  | @failed e t v _ gathered =>
    have hgathers := Gathers.of_gatherLoop gathered
    exact ⟨t, hgathers.receives.trans (t.setTimeout_receives t.settings.timeout v),
      .inr ⟨fun _ ↦ by simp, rfl⟩⟩

/-- Clearing drops what is staged, whatever the device answers. -/
theorem clear_session (s : Session World) (w : World) :
    (s.clear w).session = { s with staged := [] } := by
  unfold clear
  rcases hanswer : s.device.perform .clearInput w with ⟨_ | _, w'⟩ <;> simp only [hanswer]

end Session

end SerialLine
