import SerialLine.Proofs.CInterface.Status
/-!
# Calls that do not return

A timeout is accepted below `2 ^ 64` seconds, and a read needs a deadline below `2 ^ 63` seconds on
the clock. The two bounds are a factor of two apart (`Duration.lt_of_ofBinary64`), and in between
lie the timeouts that are accepted and cannot be used: `accepted_timeout_overflows` is a run in
which a read does not return because of one.

Over reliable devices there is no other reason, apart from a lack of memory, which is left out here:
a session always has room for its buffers, also for a read buffer of a size that is accepted and
that could not be had. `calls_settle` says of every call of every run that it returns, except for a
read for at least one byte on an open port whose deadline the clock cannot tell, and that such a
read has changed nothing. It also says that the lengths by which the sessions of the run cut their
buffers are in range (`Session.InRange`).
-/

set_option autoImplicit false

namespace SerialLine

variable {World : Type}

/-- Accepted timeouts go up to twice what the clock can tell. -/
theorem Duration.lt_of_ofBinary64 {seconds : Binary64} {limit : Duration}
    (h : ofBinary64 seconds = .ok limit) : limit.nanos < 2 * Session.clockLimit := by
  unfold ofBinary64 at h
  split at h
  · split at h
    · cases h
    · simp only at h
      split at h
      · next hlt =>
        cases h
        exact Nat.lt_of_lt_of_le hlt (by decide)
      · cases h
  · cases h

namespace Session

/-- The lengths by which a session cuts its buffers are in range: that of the frame at the front of
what is staged, that of what a push has sent, and those from which a write that fails computes how
much of its data to keep. -/
structure InRange (s : Session World) : Prop where
  frame_le : ∀ limit, s.frameLength limit ≤ s.staged.length ∧ s.frameLength limit ≤ limit
  push_le : ∀ bytes w, (s.device.push bytes w).1.taken ≤ bytes.length
  pending_le : ∀ data w,
    ((s.buffer data).drain w).session.pending.length ≤ s.pending.length + data.length
  kept_le : ∀ data w accepted, accepted = s.pending.length + data.length -
      ((s.buffer data).drain w).session.pending.length - s.pending.length →
    accepted ≤ data.length ∧
      data.length - accepted ≤ ((s.buffer data).drain w).session.pending.length

theorem inRange {s : Session World} (h : s.device.TakesWhatIsOffered) : s.InRange := by
  have hpending : ∀ data w,
      ((s.buffer data).drain w).session.pending.length ≤ s.pending.length + data.length := by
    intro data w
    obtain ⟨n, hdrain, -⟩ : Sends (fun _ ↦ []) _ w _ _ := (s.buffer data).drain_sends w
    rw [hdrain]
    show ((s.pending ++ data).drop n).length ≤ _
    rw [List.length_drop, List.length_append]
    exact Nat.sub_le _ _
  refine ⟨fun limit ↦ ?_, fun bytes w ↦ (Device.push_count h bytes w).1, hpending,
    fun data w accepted haccepted ↦ ?_⟩
  · have hle := s.termination.frameLength_le_length s.staged limit
    rw [List.length_take] at hle
    exact ⟨Nat.le_trans hle (Nat.min_le_right _ _), Nat.le_trans hle (Nat.min_le_left _ _)⟩
  · have hle := hpending data w
    omega

/-- A deadline that the clock cannot tell ends a read before anything is done. -/
theorem read_of_overflow {s : Session World} {limit : Nat} {w : World} (hlimit : limit ≠ 0)
    (h : clockLimit ≤ s.device.now w + s.settings.timeout.nanos) :
    s.read limit w = ⟨.halt .deadlineOverflow, s, w⟩ := by
  simp only [read, if_neg hlimit, if_pos h]

end Session

namespace CInterface

namespace State

/-- The call is to read at least one byte from an open port, into a buffer that is there, and the
clock cannot tell the deadline. -/
def Overflows (p : State World) (w : World) (f : Function) (code : Int) : Prop :=
  ¬ f.Malformed ∧ ∃ buffer count port r s, f = .read buffer count ∧ 0 < count ∧
    (port.code : Int) = code ∧ p.Provides r ∧ r.sessions port = some s ∧
      Session.clockLimit ≤ s.device.now w + s.settings.timeout.nanos

/-- A call that overflows leaves the registry it has found, and the world. -/
theorem call_of_overflows {p : State World} {w : World} {f : Function} {code : Int}
    (h : p.Overflows w f code) : ∃ r, p.Provides r ∧
      p.call w f code = (.error .deadlineOverflow, { p with registry := some r }, w) := by
  obtain ⟨hformed, buffer, count, port, r, s, rfl, hcount, hcode, hprovides, hs, hoverflow⟩ := h
  have hread : s.read count.toNat w = ⟨.halt .deadlineOverflow, s, w⟩ :=
    Session.read_of_overflow (by omega) hoverflow
  have hdone : perform r port (.request (.checked (.read count.toNat))) w =
      ⟨.halt .deadlineOverflow, r, w⟩ := by
    rw [perform_request_of_open hs]
    simp only [Session.meet, Request.operation, Session.perform, hread, r.put_self hs]
    rfl
  refine ⟨r, hprovides, ?_⟩
  rcases p.answer_cases w (.read buffer count) code with ⟨hmalformed, -⟩ | ⟨-, ⟨hrange, -⟩ |
    ⟨-, ⟨fault, hnone, -⟩ | ⟨port', r', hcode', hprovides', hanswer⟩⟩⟩
  · exact absurd hmalformed hformed
  · exact absurd (Port.code_range hcode) hrange
  · exact absurd hprovides (hnone.not_provides r)
  · obtain rfl : port' = port := Port.eq_of_code_eq (hcode'.trans hcode.symm)
    obtain rfl := hprovides'.unique hprovides
    rw [Function.task, hdone] at hanswer
    unfold call
    rw [hanswer]

/-- Over reliable devices, a call that does not return overflows. -/
theorem overflows_of_call_eq_error {p : State World} (hsound : p.Sound) {w : World} {f : Function}
    {code : Int} {reason : Halt} (h : (p.call w f code).1 = .error reason) :
    p.Overflows w f code := by
  have hhalt : (p.answer w f code).outcome = .halt reason := by
    unfold call at h
    simp only at h
    split at h <;> cases h
    assumption
  rcases p.answer_cases w f code with ⟨-, _, hanswer⟩ | ⟨hformed, ⟨-, hanswer⟩ |
    ⟨-, ⟨_, -, hanswer⟩ | ⟨port, r, hcode, hprovides, hanswer⟩⟩⟩ <;> rw [hanswer] at hhalt
  · cases hhalt
  · cases hhalt
  · cases hhalt
  · obtain ⟨-, s, limit, htask, hs, hlimit, hoverflow⟩ :=
      exists_read_of_perform_eq_halt (hsound.provides hprovides) hhalt
    refine ⟨hformed, ?_⟩
    cases f with
    | read buffer count =>
      obtain rfl : count.toNat = limit := by
        injection htask with hrequest
        injection hrequest with hop
        injection hop
      exact ⟨buffer, count, port, r, s, rfl, by omega, hcode, hprovides, hs, hoverflow⟩
    | _ => simp [Function.task] at htask

/-- What becomes of a call: it returns, or it overflows and has changed nothing. -/
structure Step.Settles (x : Step World) : Prop where
  returns_iff : (∃ returned, x.returned = .ok returned) ↔
    ¬ x.before.Overflows x.start x.invocation.function x.invocation.code
  overflows : x.before.Overflows x.start x.invocation.function x.invocation.code →
    x.returned = .error .deadlineOverflow ∧ x.finish = x.start ∧
      ∃ r, x.before.Provides r ∧ x.after = { x.before with registry := some r }
  inRange : ∀ {r p s}, x.before.Provides r → r.sessions p = some s → s.InRange

theorem step_settles {p : State World} (hsound : p.Sound) (w : World) (c : Invocation) :
    (p.step w c).Settles := by
  have hplaced : ({ p with environment := c.environment } : State World).Sound :=
    ⟨hsound.registry, hsound.host⟩
  have hoverflowed : (p.step w c).before.Overflows w c.function c.code →
      (p.step w c).returned = .error .deadlineOverflow ∧ (p.step w c).finish = w ∧
        ∃ r, (p.step w c).before.Provides r ∧
          (p.step w c).after = { (p.step w c).before with registry := some r } := by
    intro hoverflows
    obtain ⟨r, hprovides, hcall⟩ := call_of_overflows hoverflows
    exact ⟨congrArg Prod.fst hcall, congrArg (·.2.2) hcall, r, hprovides, congrArg (·.2.1) hcall⟩
  refine ⟨⟨?_, fun hreturns ↦ ?_⟩, hoverflowed, fun hprovides hs ↦ ?_⟩
  · rintro ⟨returned, hreturned⟩ hoverflows
    rw [(hoverflowed hoverflows).1] at hreturned
    cases hreturned
  · cases hreturned : (p.step w c).returned with
    | ok returned => exact ⟨returned, rfl⟩
    | error reason => exact absurd (overflows_of_call_eq_error hplaced hreturned) hreturns
  · exact Session.inRange ((hplaced.provides hprovides).held hs).device.takesWhatIsOffered

/-- Whatever is called, and however often, over reliable devices: a call returns unless it is a read
whose deadline the clock cannot tell. By induction on the calls. -/
theorem calls_settle (p : State World) (w : World) (calls : List Invocation) (hsound : p.Sound) :
    ∀ x ∈ p.run w calls, x.Settles := by
  induction calls generalizing p w with
  | nil => exact fun x hx ↦ absurd hx List.not_mem_nil
  | cons c calls ih =>
    have hplaced : ({ p with environment := c.environment } : State World).Sound :=
      ⟨hsound.registry, hsound.host⟩
    intro x hx
    rcases List.mem_cons.mp hx with rfl | hlater
    · exact step_settles hsound w c
    · exact ih _ _ (hplaced.call w c.function c.code) x hlater

/-- With a timeout of `10 ^ 19` seconds, reads for nothing and all other calls return. With one
second reads return, too. -/
theorem calls_settle_bench :
    let p : State Bench :=
      { registry := some { opener := Bench.opener }, host := Host.without none }
    let calls : List Invocation :=
      [⟨none, .openPort, 0⟩, ⟨none, .setTimeout (.ofBits 0x43e158e460913d00), 0⟩,
        ⟨none, .read (some [0]) 1, 0⟩, ⟨none, .read none 0, 0⟩, ⟨none, .write (some [7]) 1, 0⟩,
        ⟨none, .setTimeout (.ofBits 0x3ff0000000000000), 0⟩, ⟨none, .read (some [0]) 1, 0⟩]
    (p.run {} calls).map (·.returned.toOption) =
        [some ⟨0, 0, none⟩, some ⟨0, 0, none⟩, none, some ⟨0, 0, none⟩, some ⟨0, 1, some [7]⟩,
          some ⟨0, 0, none⟩, some ⟨0, 1, some [7]⟩] ∧
      ∀ x ∈ p.run {} calls, x.Settles := by
  intro p calls
  exact ⟨by decide +kernel, calls_settle p {} calls (sound_bench {})⟩

/-- The timeout of `10 ^ 19` seconds is accepted on an open port of a bench, and the next read does
not return. -/
theorem accepted_timeout_overflows :
    let p : State Bench :=
      { registry := some { opener := Bench.opener }, host := Host.without none }
    let calls : List Invocation :=
      [⟨none, .openPort, 0⟩, ⟨none, .setTimeout (.ofBits 0x43e158e460913d00), 0⟩,
        ⟨none, .read (some [0]) 1, 0⟩]
    (p.run {} calls).map Step.returned =
      [.ok ⟨0, 0, none⟩, .ok ⟨0, 0, none⟩, .error .deadlineOverflow] := by
  rfl

end State

end CInterface

end SerialLine
