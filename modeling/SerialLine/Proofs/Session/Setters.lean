import SerialLine.Proofs.Session.Frame
import SerialLine.Script
/-!
# Settings on the device and on record

A session keeps a record of its settings beside the device that it tells about them. A setter that
succeeds has replaced the one field that it names (`Operation.record`). A setter that fails has
left the record alone, with one exception: the size of the write buffer is on record before the
buffers that are whole by the new measure are pushed, and stays there when the device fails in the
middle of that. `settings_perform` states this for all operations, and
`setWriteBufferSize_fails_with_new_size` is a history that ends in the exception.
-/

set_option autoImplicit false

namespace SerialLine

/-- The settings with the one field replaced that a setter names. Other operations name none. -/
def Operation.record : Operation → LineSettings → LineSettings
  | .set change, settings => settings.record change
  | .setReadBufferSize size, settings => { settings with readBufferSize := size }
  | .setWriteBufferSize size, settings => { settings with writeBufferSize := size }
  | .setWriteMode mode, settings => { settings with writeMode := mode }
  | _, settings => settings

namespace Session

variable {World : Type}

/-- The size of a write buffer is on record however the push of whole buffers ends. -/
theorem settings_setWriteBufferSize (s : Session World) {size : Nat} (hsize : size ≠ 0)
    (w : World) : (s.setWriteBufferSize size w).session.settings =
      { s.settings with writeBufferSize := size } := by
  obtain ⟨n, hdrain, -⟩ : Sends (fun _ ↦ []) _ w _ _ := drain_sends
    { s with settings := { s.settings with writeBufferSize := size } } w
  rw [s.setWriteBufferSize_eq hsize, hdrain]

/-- Either the field that an operation names is on record with its new value, because the operation
succeeded or was about the write buffer, or the record is as it was, and then no setter has
succeeded. -/
theorem settings_cases (s : Session World) (w : World) (op : Operation) :
    ((s.perform w op).session.settings = op.record s.settings ∧
        (∀ size, op = .setWriteBufferSize size → size ≠ 0) ∧
        ((∃ a, (s.perform w op).outcome = .ok a) ∨ ∃ size, op = .setWriteBufferSize size)) ∨
      ((s.perform w op).session.settings = s.settings ∧
        (op.IsSetter → ∀ a, (s.perform w op).outcome ≠ .ok a)) := by
  cases op with
  | set change =>
    rcases s.set_cases change w with ⟨w', hset⟩ | ⟨e, w', hset⟩ <;> rw [perform, hset]
    · exact .inl ⟨rfl, fun _ h ↦ (by cases h), .inl ⟨(), rfl⟩⟩
    · exact .inr ⟨rfl, fun _ _ h ↦ by cases h⟩
  | setReadBufferSize size =>
    rcases s.setReadBufferSize_cases size w with hset | ⟨e, hset⟩ <;> rw [perform, hset]
    · exact .inl ⟨rfl, fun _ h ↦ (by cases h), .inl ⟨(), rfl⟩⟩
    · exact .inr ⟨rfl, fun _ _ h ↦ by cases h⟩
  | setWriteBufferSize size =>
    by_cases hsize : size = 0
    · rw [hsize]
      exact .inr ⟨rfl, fun _ _ h ↦ by cases h⟩
    · refine .inl ⟨s.settings_setWriteBufferSize hsize w, fun size' h ↦ ?_, .inr ⟨size, rfl⟩⟩
      cases h
      exact hsize
  | setWriteMode mode =>
    rcases s.setWriteMode_cases (fun _ ↦ []) mode w with
      ⟨t, w', ⟨n, rfl, -⟩, -, hset⟩ | ⟨outcome, t, w', hfailed, ⟨n, rfl, -⟩, hset⟩ <;>
      rw [perform, hset]
    · exact .inl ⟨rfl, fun _ h ↦ (by cases h), .inl ⟨(), rfl⟩⟩
    · exact .inr ⟨rfl, fun _ _ ↦ hfailed⟩
  | _ => exact .inr ⟨(s.perform_frame w _).settings_eq not_false, fun hop ↦ hop.elim⟩

/-- An operation that succeeds has replaced the field that it names and no other. -/
theorem settings_of_ok {s : Session World} {w : World} {op : Operation} {a : op.Answer}
    (h : (s.perform w op).outcome = .ok a) :
    (s.perform w op).session.settings = op.record s.settings := by
  rcases s.settings_cases w op with ⟨hrecorded, -⟩ | ⟨hkept, hfailed⟩
  · exact hrecorded
  · rw [hkept]
    cases op with
    | set | setReadBufferSize | setWriteBufferSize | setWriteMode =>
      exact absurd h (hfailed trivial a)
    | _ => rfl

/-- An operation that fails has left the record alone, unless it was about the write buffer. -/
theorem settings_of_error {s : Session World} {w : World} {op : Operation} {e : SerialError}
    (h : (s.perform w op).outcome = .error e)
    (hop : ∀ size, op = .setWriteBufferSize size → size = 0) :
    (s.perform w op).session.settings = s.settings := by
  rcases s.settings_cases w op with ⟨-, hsize, ⟨a, hok⟩ | ⟨size, hbuffer⟩⟩ | ⟨hkept, -⟩
  · rw [h] at hok
    cases hok
  · exact absurd (hop size hbuffer) (hsize size hbuffer)
  · exact hkept

/-- A write buffer that has room for a byte is never replaced by one that has none. -/
theorem writeBufferSize_pos {s : Session World} (hs : 0 < s.settings.writeBufferSize) (w : World)
    (op : Operation) : 0 < (s.perform w op).session.settings.writeBufferSize := by
  rcases s.settings_cases w op with ⟨hrecorded, hsize, -⟩ | ⟨hkept, -⟩
  · rw [hrecorded]
    cases op with
    | set change => cases change <;> exact hs
    | setWriteBufferSize size => exact Nat.pos_of_ne_zero (hsize size rfl)
    | _ => exact hs
  · rw [hkept]
    exact hs

/-- A setter that succeeds has replaced the one field that it names. A setter that fails has left
all nine alone, except that a new size of the write buffer stays on record, where it replaces the
size that was there. -/
theorem settings_perform (s : Session World) (w : World) (op : Operation) :
    (∀ a, (s.perform w op).outcome = .ok a →
        (s.perform w op).session.settings = op.record s.settings) ∧
      ∀ e, (s.perform w op).outcome = .error e →
        ((s.perform w op).session.settings = s.settings ↔
          ∀ size, op = .setWriteBufferSize size → size = 0 ∨ size = s.settings.writeBufferSize) ∧
        ((s.perform w op).session.settings = s.settings ∨
          (s.perform w op).session.settings = op.record s.settings) := by
  refine ⟨fun a ha ↦ settings_of_ok ha, fun e he ↦ ?_⟩
  by_cases hop : ∀ size, op = .setWriteBufferSize size → size = 0
  · have hkept := settings_of_error he hop
    exact ⟨⟨fun _ size hsize ↦ .inl (hop size hsize), fun _ ↦ hkept⟩, .inl hkept⟩
  · rw [Classical.not_forall] at hop
    obtain ⟨size, hnew⟩ := hop
    rw [Classical.not_imp] at hnew
    obtain ⟨rfl, hsize⟩ := hnew
    have hrecorded : (s.perform w (.setWriteBufferSize size)).session.settings =
        { s.settings with writeBufferSize := size } := s.settings_setWriteBufferSize hsize w
    refine ⟨⟨fun hkept size' hsize' ↦ ?_, fun hsame ↦ ?_⟩, .inr hrecorded⟩
    · cases hsize'
      rw [hrecorded] at hkept
      exact .inr (congrArg LineSettings.writeBufferSize hkept)
    · rcases hsame size rfl with hzero | hold
      · exact absurd hzero hsize
      · rw [hrecorded, hold]

/-- Four bytes are waiting in a write buffer of eight when it shrinks to two. The device fails at
the first of the two buffers that are whole now. -/
theorem setWriteBufferSize_fails_with_new_size :
    let s : Session Script :=
      { port := .onboard
        device := Script.device
        settings := { writeMode := .flushWhenFull, writeBufferSize := 8 }
        pending := [97, 98, 99, 100] }
    let done := s.perform { writes := [.fails ⟨.io .brokenPipe, "scripted"⟩] }
      (.setWriteBufferSize 2)
    done.outcome = .error (.io ⟨.brokenPipe, "scripted"⟩) ∧
      done.session.settings ≠ s.settings ∧ done.session.settings.writeBufferSize = 2 := by
  refine ⟨rfl, fun hsame ↦ ?_, rfl⟩
  exact absurd (congrArg LineSettings.writeBufferSize hsame) (by decide)

end Session

end SerialLine
