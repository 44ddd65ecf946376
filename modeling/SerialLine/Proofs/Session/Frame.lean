import SerialLine.Proofs.Session.Gather
import SerialLine.Proofs.Session.Push
import SerialLine.Session.Operation
/-!
# What an operation leaves alone

Only setters change the settings of a session. Only reading and clearing change what is staged, and
only writing, flushing, discarding and the two setters that may push bytes change what is pending.
`perform_frame` states this of every operation, whatever it comes to. The lemmas before it describe
one setter each.
-/

set_option autoImplicit false

namespace SerialLine

namespace Operation

/-- The nine setters: six for what lives on the device, and three for buffers and write mode. -/
def IsSetter : Operation → Prop
  | .set _ | .setReadBufferSize _ | .setWriteBufferSize _ | .setWriteMode _ => True
  | _ => False

/-- The operations that may change what is staged. -/
def TouchesInput : Operation → Prop
  | .read _ | .clear => True
  | _ => False

/-- The operations that may change what is pending. -/
def TouchesOutput : Operation → Prop
  | .write _ | .flush | .setWriteBufferSize _ | .setWriteMode _ | .discardOutput => True
  | _ => False

end Operation

namespace Session

variable {World : Type}

/-! ### One setter at a time -/

theorem configure_cases (s : Session World) (change : Setting) (w : World) :
    (∃ w', s.configure change w =
        ⟨.ok (), { s with settings := s.settings.record change }, w'⟩) ∨
      ∃ e w', s.configure change w = ⟨.error e, s, w'⟩ := by
  unfold configure
  rcases s.device.perform (.set change) w with ⟨e | _, w'⟩
  · exact .inr ⟨.ofDevice e, w', rfl⟩
  · exact .inl ⟨w', rfl⟩

/-- The record of a setting on the device follows the answer of the device. -/
theorem set_cases (s : Session World) (change : Setting) (w : World) :
    (∃ w', s.set change w = ⟨.ok (), { s with settings := s.settings.record change }, w'⟩) ∨
      ∃ e w', s.set change w = ⟨.error e, s, w'⟩ := by
  unfold set
  cases change with
  | baudRate rate =>
    cases hcheck : checkBaudRate rate with
    | error reason => exact .inr ⟨.invalidArgument reason, w, by simp only [hcheck]⟩
    | ok _ =>
      simp only [hcheck]
      exact s.configure_cases (.baudRate rate) w
  | _ => exact s.configure_cases _ w

theorem setReadBufferSize_cases (s : Session World) (size : Nat) (w : World) :
    s.setReadBufferSize size w =
        ⟨.ok (), { s with settings := { s.settings with readBufferSize := size } }, w⟩ ∨
      ∃ e, s.setReadBufferSize size w = ⟨.error e, s, w⟩ := by
  unfold setReadBufferSize
  cases checkBufferSize .read size with
  | error reason => exact .inr ⟨.invalidArgument reason, rfl⟩
  | ok _ => exact .inl rfl

/-- Any size but zero is on record before buffers are pushed. -/
theorem setWriteBufferSize_eq (s : Session World) {size : Nat} (hsize : size ≠ 0) (w : World) :
    s.setWriteBufferSize size w =
      { s with settings := { s.settings with writeBufferSize := size } }.drain w := by
  simp only [setWriteBufferSize, checkBufferSize, if_neg hsize]

/-- The write mode is on record after pending bytes have been flushed, and only if that went well.
Writes go straight to the device only when nothing is pending any more. -/
theorem setWriteMode_cases (log : World → List Exchange) (s : Session World) (mode : WriteMode)
    (w : World) :
    (∃ t w', Sends log s w t w' ∧ (mode = .flushOnAccess → t.pending = []) ∧
        s.setWriteMode mode w =
          ⟨.ok (), { t with settings := { t.settings with writeMode := mode } }, w'⟩) ∨
      ∃ outcome t w', outcome ≠ .ok () ∧ Sends log s w t w' ∧
        s.setWriteMode mode w = ⟨outcome, t, w'⟩ := by
  unfold setWriteMode
  by_cases hleaving : mode = .flushOnAccess ∧ s.pending ≠ []
  · have hsends : Sends log s w _ _ := s.flush_sends w
    have hpending := s.pending_eq_nil_of_flush_ok (w := w)
    simp only [if_pos hleaving]
    rcases hflushed : s.flush w with ⟨outcome, t, w'⟩
    rw [hflushed] at hsends hpending
    cases outcome with
    | ok _ => exact .inl ⟨t, w', hsends, fun _ ↦ hpending rfl, rfl⟩
    | _ => exact .inr ⟨_, t, w', by simp, hsends, rfl⟩
  · simp only [if_neg hleaving]
    refine .inl ⟨s, w, .refl s w, fun hmode ↦ ?_, rfl⟩
    by_cases hpending : s.pending = []
    · exact hpending
    · exact absurd ⟨hmode, hpending⟩ hleaving

/-! ### All operations -/

/-- The session after an operation differs from the one before at most in what the operation is
about. -/
structure Frame (op : Operation) (s s' : Session World) : Prop where
  settings_eq : ¬ op.IsSetter → s'.settings = s.settings
  staged_eq : ¬ op.TouchesInput → s'.staged = s.staged ∧ s'.received = s.received
  pending_eq : ¬ op.TouchesOutput → s'.pending = s.pending ∧ s'.sent = s.sent ∧
    s'.settings.writeMode = s.settings.writeMode

/-- An operation leaves alone what it is not about, whether it succeeds, fails or halts. -/
theorem perform_frame (s : Session World) (w : World) (op : Operation) :
    Frame op s (s.perform w op).session := by
  cases op with
  | set change =>
    rcases s.set_cases change w with ⟨w', hset⟩ | ⟨e, w', hset⟩ <;> rw [perform, hset]
    · refine ⟨fun h ↦ absurd trivial h, fun _ ↦ ⟨rfl, rfl⟩, fun _ ↦ ⟨rfl, rfl, ?_⟩⟩
      cases change <;> rfl
    · exact ⟨fun _ ↦ rfl, fun _ ↦ ⟨rfl, rfl⟩, fun _ ↦ ⟨rfl, rfl, rfl⟩⟩
  | setReadBufferSize size =>
    rcases s.setReadBufferSize_cases size w with hset | ⟨e, hset⟩ <;> rw [perform, hset] <;>
      exact ⟨fun h ↦ absurd trivial h, fun _ ↦ ⟨rfl, rfl⟩, fun _ ↦ ⟨rfl, rfl, rfl⟩⟩
  | setWriteBufferSize size =>
    refine ⟨fun h ↦ absurd trivial h, fun _ ↦ ?_, fun h ↦ absurd trivial h⟩
    by_cases hsize : size = 0
    · rw [hsize]
      exact ⟨rfl, rfl⟩
    · obtain ⟨n, hdrain, -⟩ : Sends (fun _ ↦ []) _ w _ _ := drain_sends
        { s with settings := { s.settings with writeBufferSize := size } } w
      rw [perform, s.setWriteBufferSize_eq hsize, hdrain]
      exact ⟨rfl, rfl⟩
  | setWriteMode mode =>
    rcases s.setWriteMode_cases (fun _ ↦ []) mode w with
      ⟨t, w', ⟨n, rfl, -⟩, -, hset⟩ | ⟨outcome, t, w', -, ⟨n, rfl, -⟩, hset⟩ <;>
      rw [perform, hset] <;>
      exact ⟨fun h ↦ absurd trivial h, fun _ ↦ ⟨rfl, rfl⟩, fun h ↦ absurd trivial h⟩
  | enableTermination | disableTermination =>
    exact ⟨fun _ ↦ rfl, fun _ ↦ ⟨rfl, rfl⟩, fun _ ↦ ⟨rfl, rfl, rfl⟩⟩
  | bytesAvailable =>
    unfold perform bytesAvailable
    rcases s.device.perform .bytesToRead w with ⟨_ | _, w'⟩ <;>
      exact ⟨fun _ ↦ rfl, fun _ ↦ ⟨rfl, rfl⟩, fun _ ↦ ⟨rfl, rfl, rfl⟩⟩
  | read limit =>
    obtain ⟨t, ⟨bytes, rfl, -⟩, ⟨n, -, -, hend⟩ | ⟨-, hend⟩⟩ :=
      s.read_receives (fun _ ↦ []) limit w <;> rw [perform, hend] <;>
      exact ⟨fun _ ↦ rfl, fun h ↦ absurd trivial h, fun _ ↦ ⟨rfl, rfl, rfl⟩⟩
  | write data =>
    obtain ⟨pending, sent, hwrite⟩ := s.write_session data w
    rw [perform, hwrite]
    exact ⟨fun _ ↦ rfl, fun _ ↦ ⟨rfl, rfl⟩, fun h ↦ absurd trivial h⟩
  | flush =>
    obtain ⟨n, hflush, -⟩ : Sends (fun _ ↦ []) s w _ _ := s.flush_sends w
    rw [perform, hflush]
    exact ⟨fun _ ↦ rfl, fun _ ↦ ⟨rfl, rfl⟩, fun h ↦ absurd trivial h⟩
  | clear =>
    rw [perform, s.clear_session w]
    exact ⟨fun _ ↦ rfl, fun h ↦ absurd trivial h, fun _ ↦ ⟨rfl, rfl, rfl⟩⟩
  | discardOutput => exact ⟨fun _ ↦ rfl, fun _ ↦ ⟨rfl, rfl⟩, fun h ↦ absurd trivial h⟩

end Session

end SerialLine
