import SerialLine.Proofs.Loopback.Echo
import SerialLine.Proofs.Session.Devices
import SerialLine.Proofs.Session.Faults
/-!
# The next frame of a queue of answers

A scripted device answers reads from a queue. Up to the first fault in it, the queue amounts to a
stream of bytes: the data of its answers, in whichever pieces they come, with pauses between them
that do not matter. A gathering draws on this stream (`Session.Draws`) until the frame is ready, the
fault comes up, or the queue is silent for the rest of the time (`Session.Gathered`).

A read therefore depends on what is staged followed by the stream, not on the pieces
(`read_next_frame`). It hands out the first frame of these data if the frame is ready. Otherwise it
takes all of them, and it fails with the fault if there is one and hands them out late if not.
-/

set_option autoImplicit false

namespace SerialLine

/-! ### Queues -/

namespace ReadItem

/-- The fault that an answer reports. -/
def fault? : ReadItem → Option IoError
  | .data _ => none
  | .fails e => if e.toIo.IsFault then some e.toIo else none

theorem fault?_eq_some_iff {item : ReadItem} {e : IoError} :
    item.fault? = some e ↔ ∃ cause : Host.Error, item = .fails cause ∧ cause.toIo.IsFault ∧
      cause.toIo = e := by
  cases item with
  | data bytes => simp [fault?]
  | fails cause => simp [fault?]

/-- The bytes that a queue delivers before its first fault. -/
def stream (queue : List ReadItem) : Bytes :=
  (queue.takeWhile (·.fault?.isNone)).flatMap ReadItem.bytes

/-- The first fault of a queue and what comes after it. -/
def beyond (queue : List ReadItem) : List ReadItem := queue.dropWhile (·.fault?.isNone)

def firstFault? (queue : List ReadItem) : Option IoError := (beyond queue).head?.bind fault?

variable {item : ReadItem} {items : List ReadItem} {e : IoError}

@[simp] theorem stream_nil : stream [] = [] := rfl

@[simp] theorem beyond_nil : beyond [] = [] := rfl

theorem stream_of_fault (h : item.fault? = some e) : stream (item :: items) = [] := by
  simp [stream, h]

theorem beyond_of_fault (h : item.fault? = some e) : beyond (item :: items) = item :: items := by
  simp [beyond, h]

theorem stream_of_no_fault (h : item.fault? = none) :
    stream (item :: items) = item.bytes ++ stream items := by
  simp [stream, h]

theorem beyond_of_no_fault (h : item.fault? = none) : beyond (item :: items) = beyond items := by
  simp [beyond, h]

end ReadItem

open ReadItem (stream beyond firstFault?)

namespace Script

variable {w : Script}

/-- A script that never rejects a timeout and whose reads take no time unless they are silent. -/
structure Obliging (w : Script) : Prop where
  accepts : ∀ e, (.setTimeout, .fails e) ∉ w.calls
  pace_eq : w.pace = 0

theorem Obliging.setTimeout (h : w.Obliging) (limit : Duration) :
    ∃ v, w.setTimeout limit = (.ok (), v) ∧ v.Obliging ∧ v.reads = w.reads ∧ v.clock = w.clock ∧
      v.timeout = limit := by
  have hanswer : (w.answer .setTimeout).1 = .ok () := by
    unfold answer next
    cases hfound : w.calls.find? (·.1 = .setTimeout) with
    | none => rfl
    | some found =>
      obtain ⟨method, item⟩ := found
      have hmethod : method = .setTimeout := by simpa using List.find?_some hfound
      cases item with
      | fails e => exact absurd (hmethod ▸ List.mem_of_find?_eq_some hfound) (h.accepts e)
      | _ => rfl
  have haccepted : w.answer .setTimeout =
      (.ok (), { w with calls := w.calls.eraseP (·.1 = .setTimeout) }) :=
    Prod.ext hanswer (w.answer_script .setTimeout)
  refine ⟨{ w with calls := w.calls.eraseP (·.1 = .setTimeout), timeout := limit }, ?_,
    ⟨fun e hmem ↦ h.accepts e (List.mem_of_mem_eraseP hmem), h.pace_eq⟩, rfl, rfl, rfl⟩
  unfold Script.setTimeout
  rw [haccepted]

/-- A read that meets no fault takes bytes from the stream or uses an answer up, and leaves the rest
of the queue as it is. -/
theorem Obliging.read (h : w.Obliging) {item : ReadItem} {items : List ReadItem}
    (hreads : w.reads = item :: items) (hitem : item.fault? = none) {room : Nat}
    (hroom : 0 < room) :
    ∃ bytes w', (w.read room = (.ok bytes, w') ∨
        bytes = [] ∧ ∃ e, w.read room = (.error e, w') ∧ ¬e.toIo.IsFault) ∧
      bytes ++ stream w'.reads = stream w.reads ∧ beyond w'.reads = beyond w.reads ∧
      w'.reads.length ≤ w.reads.length ∧ (w'.reads.length < w.reads.length ∨ bytes ≠ []) ∧
      w'.Obliging ∧ w'.clock = w.clock := by
  have hpace : w.clock + w.pace = w.clock := by rw [h.pace_eq, Nat.add_zero]
  rw [hreads, ReadItem.stream_of_no_fault hitem, ReadItem.beyond_of_no_fault hitem]
  cases item with
  | fails e =>
    have hsoft : ¬e.toIo.IsFault := by simpa [ReadItem.fault?] using hitem
    have hread :
        w.read room = (.error e, { w with reads := items, clock := w.clock + w.pace }) := by
      rw [Script.read, hreads]
    exact ⟨[], _, .inr ⟨rfl, e, hread, hsoft⟩, rfl, rfl, Nat.le_succ _, .inl (Nat.lt_succ_self _),
      ⟨h.accepts, h.pace_eq⟩, hpace⟩
  | data bytes =>
    have hread : w.read room = (.ok (bytes.take room), { w with
        reads := if (bytes.drop room).isEmpty then items else .data (bytes.drop room) :: items
        clock := w.clock + w.pace }) := by
      rw [Script.read, hreads]
    by_cases hrest : bytes.drop room = []
    · have hall : bytes.take room = bytes :=
        List.take_of_length_le (List.drop_eq_nil_iff.mp hrest)
      rw [hall, hrest] at hread
      exact ⟨bytes, _, .inl hread, rfl, rfl, Nat.le_succ _, .inl (Nat.lt_succ_self _),
        ⟨h.accepts, h.pace_eq⟩, hpace⟩
    · have hkept : (ReadItem.data (bytes.drop room)).fault? = none := rfl
      have htaken : bytes.take room ≠ [] := fun hnone ↦ hrest (by
        rw [(List.take_eq_nil_iff.mp hnone).resolve_left (by omega), List.drop_nil])
      rw [if_neg (by rwa [List.isEmpty_iff])] at hread
      refine ⟨bytes.take room, _, .inl hread, ?_, ReadItem.beyond_of_no_fault hkept, Nat.le_refl _,
        .inr htaken, ⟨h.accepts, h.pace_eq⟩, hpace⟩
      show _ ++ stream (.data (bytes.drop room) :: items) = _
      rw [ReadItem.stream_of_no_fault hkept, ← List.append_assoc]
      exact congrArg (· ++ _) (List.take_append_drop _ _)

end Script

namespace Session

variable {s : Session Script} {w : Script}

/-! ### Gathering from a queue -/

/-- Bytes from the stream of the queue have been staged. What is staged or in the stream is the same
as before, and no time has passed. -/
structure Draws (s : Session Script) (w : Script) (s' : Session Script) (w' : Script) : Prop where
  session_eq : ∃ bytes,
    s' = { s with staged := s.staged ++ bytes, received := s.received + bytes.length }
  data_eq : s'.staged ++ stream w'.reads = s.staged ++ stream w.reads
  beyond_eq : beyond w'.reads = beyond w.reads
  obliging : w.Obliging → w'.Obliging
  clock_eq : w'.clock = w.clock

theorem Draws.refl (s : Session Script) (w : Script) : Draws s w s w :=
  ⟨⟨[], by rw [List.append_nil]; rfl⟩, rfl, rfl, id, rfl⟩

theorem Draws.trans {s' s'' : Session Script} {w' w'' : Script} (hfirst : Draws s w s' w')
    (hsecond : Draws s' w' s'' w'') : Draws s w s'' w'' where
  session_eq := by
    obtain ⟨first, rfl⟩ := hfirst.session_eq
    obtain ⟨second, rfl⟩ := hsecond.session_eq
    exact ⟨first ++ second, by simp only [List.append_assoc, List.length_append, Nat.add_assoc]⟩
  data_eq := hsecond.data_eq.trans hfirst.data_eq
  beyond_eq := hsecond.beyond_eq.trans hfirst.beyond_eq
  obliging := hsecond.obliging ∘ hfirst.obliging
  clock_eq := hsecond.clock_eq.trans hfirst.clock_eq

/-- A fill sets the timeout and reads. It stages data, and of the errors it reports the faults. -/
theorem fill_of_obliging (hspeaks : Script.Speaks s.device) (hw : w.Obliging) (limit : Duration) :
    ∃ v : Script, v.Obliging ∧ v.reads = w.reads ∧ v.clock = w.clock ∧ v.timeout = limit ∧
      (∀ bytes w', v.read s.settings.readBufferSize = (.ok bytes, w') →
        s.fill limit w = ⟨.ok (), { s with staged := s.staged ++ bytes
                                           received := s.received + bytes.length }, w'⟩) ∧
      (∀ e w', v.read s.settings.readBufferSize = (.error e, w') →
        s.fill limit w = ⟨if e.toIo.IsFault then .error (.io e.toIo) else .ok (), s, w'⟩) := by
  obtain ⟨first, hset⟩ := hspeaks.setTimeout_eq limit w
  have hnoted : (w.note first).Obliging := ⟨hw.accepts, hw.pace_eq⟩
  obtain ⟨v, haccepted, hv, hreads, hclock, htimeout⟩ := hnoted.setTimeout limit
  rw [haccepted] at hset
  obtain ⟨second, hread⟩ := hspeaks.read_eq s.settings.readBufferSize v
  refine ⟨v.note second, ⟨hv.accepts, hv.pace_eq⟩, hreads, hclock, htimeout,
    fun bytes w' hanswer ↦ ?_, fun e w' hanswer ↦ ?_⟩
  · rw [hanswer] at hread
    unfold fill
    rw [hset]
    simp only [HostPort.lift, Except.mapError, hread]
  · rw [hanswer] at hread
    unfold fill
    rw [hset]
    simp only [HostPort.lift, Except.mapError, hread]
    obtain ⟨kind, text⟩ := e.toIo
    cases kind <;> rfl

/-- A silent queue lets the time pass that a fill is given. -/
theorem fill_silent (hspeaks : Script.Speaks s.device) (hw : w.Obliging) (hreads : w.reads = [])
    (limit : Duration) :
    ∃ w', s.fill limit w = ⟨.ok (), s, w'⟩ ∧ w'.reads = [] ∧ w'.clock = w.clock + limit.nanos := by
  obtain ⟨v, hv, hqueue, hclock, htimeout, -, hfailed⟩ := fill_of_obliging hspeaks hw limit
  rw [hreads] at hqueue
  have hread : v.read s.settings.readBufferSize = (.error ⟨.io .timedOut, "scripted TimedOut"⟩,
      { v with clock := v.clock + v.timeout.nanos + v.pace }) := by
    rw [Script.read, hqueue]
  refine ⟨_, hfailed _ _ hread, hqueue, ?_⟩
  show v.clock + v.timeout.nanos + v.pace = w.clock + limit.nanos
  rw [hv.pace_eq, hclock, htimeout, Nat.add_zero]

/-- A fill fails with the fault that has come up, which is no longer queued then. -/
theorem fill_fault (hspeaks : Script.Speaks s.device) (hw : w.Obliging) {item : ReadItem}
    {items : List ReadItem} {e : IoError} (hreads : w.reads = item :: items)
    (hitem : item.fault? = some e) (limit : Duration) :
    ∃ w', s.fill limit w = ⟨.error (.io e), s, w'⟩ ∧ w'.reads = items := by
  obtain ⟨v, hv, hqueue, hclock, htimeout, -, hfailed⟩ := fill_of_obliging hspeaks hw limit
  obtain ⟨cause, rfl, hfault, rfl⟩ := ReadItem.fault?_eq_some_iff.mp hitem
  rw [hreads] at hqueue
  have hread : v.read s.settings.readBufferSize =
      (.error cause, { v with reads := items, clock := v.clock + v.pace }) := by
    rw [Script.read, hqueue]
  have hfill := hfailed _ _ hread
  rw [if_pos hfault] at hfill
  exact ⟨_, hfill, rfl⟩

/-- Any other answer is used up, or some bytes of it are staged. -/
theorem fill_draws (hspeaks : Script.Speaks s.device) (hw : w.Obliging)
    (hsize : 0 < s.settings.readBufferSize) {item : ReadItem} {items : List ReadItem}
    (hreads : w.reads = item :: items) (hitem : item.fault? = none) (limit : Duration) :
    ∃ s' w', s.fill limit w = ⟨.ok (), s', w'⟩ ∧ Draws s w s' w' ∧
      w'.reads.length ≤ w.reads.length ∧
      (w'.reads.length < w.reads.length ∨ s.staged.length < s'.staged.length) := by
  obtain ⟨v, hv, hqueue, hclock, htimeout, hdelivered, hfailed⟩ :=
    fill_of_obliging hspeaks hw limit
  obtain ⟨bytes, w', hanswer, hstream, hbeyond, hlength, hless, hw', hclock'⟩ :=
    hv.read (hqueue.trans hreads) hitem hsize
  rw [hqueue] at hstream hbeyond hlength hless
  have hdraws : Draws s w
      { s with staged := s.staged ++ bytes, received := s.received + bytes.length } w' :=
    ⟨⟨bytes, rfl⟩, by rw [List.append_assoc, hstream], hbeyond, fun _ ↦ hw', hclock'.trans hclock⟩
  have hmore : bytes ≠ [] → s.staged.length < (s.staged ++ bytes).length := fun hne ↦ by
    rw [List.length_append]
    exact Nat.lt_add_of_pos_right (List.length_pos_iff.mpr hne)
  rcases hanswer with hread | ⟨rfl, e, hread, hsoft⟩
  · exact ⟨_, w', hdelivered _ _ hread, hdraws, hlength, hless.imp_right hmore⟩
  · have hfill := hfailed _ _ hread
    rw [if_neg hsoft] at hfill
    rw [List.append_nil] at hdraws hmore
    exact ⟨s, w', hfill, hdraws, hlength, hless.imp_right hmore⟩

/-- How a gathering ends, once it has drawn on the stream as far as it goes: the frame is ready, the
first fault has come up, or the queue has been silent until the deadline. -/
inductive Gathered (limit deadline : Nat) (s : Session Script) (w : Script) :
    Result Script Unit → Prop
  | ready (whole : s.FrameReady limit) : Gathered limit deadline s w ⟨.ok (), s, w⟩
  | failed {item : ReadItem} {w' : Script} {e : IoError} (short : ¬s.FrameReady limit)
      (queued : w.reads = item :: w'.reads) (fault : item.fault? = some e) :
      Gathered limit deadline s w ⟨.error (.io e), s, w'⟩
  | late {w' : Script} (short : ¬s.FrameReady limit) (queued : w.reads = [])
      (silent : w'.reads = []) (passed : deadline ≤ w'.clock) :
      Gathered limit deadline s w ⟨.ok (), s, w'⟩

/-- By induction on the fills that are left, of which there are enough for the room in the frame and
the answers in the queue. The clock stands still until the queue is silent. -/
theorem gatherLoop_gathered (limit deadline fills : Nat) (attempted : Bool)
    (hspeaks : Script.Speaks s.device) (hw : w.Obliging) (hsize : 0 < s.settings.readBufferSize)
    (hclock : w.clock < deadline)
    (hfills : limit - s.staged.length + w.reads.length + 1 ≤ fills) :
    ∃ s' w', Draws s w s' w' ∧
      Gathered limit deadline s' w' (gatherLoop limit deadline fills attempted s w) := by
  induction fills generalizing attempted s w with
  | zero => omega
  | succ fills ih =>
    have hnow := hspeaks.now_eq w
    by_cases hready : s.FrameReady limit
    · refine ⟨s, w, .refl s w, ?_⟩
      rw [gatherLoop_of_ready hready]
      exact .ready hready
    have hroom : s.staged.length < limit := Termination.length_lt_of_not_ready hready
    have htime : ¬(deadline - w.clock = 0 ∧ attempted) := by omega
    unfold gatherLoop
    simp only [if_neg hready, hnow, if_neg htime]
    cases hreads : w.reads with
    | nil =>
      obtain ⟨w', hfill, hreads', hclock'⟩ :=
        fill_silent hspeaks hw hreads ⟨deadline - w.clock⟩
      have hlate : deadline ≤ w'.clock := by
        change w'.clock = w.clock + (deadline - w.clock) at hclock'
        omega
      refine ⟨s, w, .refl s w, ?_⟩
      simp only [hfill, gatherLoop_of_late (hspeaks.now_eq w' ▸ hlate)]
      exact .late hready hreads hreads' hlate
    | cons item items =>
      cases hitem : item.fault? with
      | some e =>
        obtain ⟨w', hfill, hreads'⟩ :=
          fill_fault hspeaks hw hreads hitem ⟨deadline - w.clock⟩
        refine ⟨s, w, .refl s w, ?_⟩
        simp only [hfill]
        exact .failed hready (hreads' ▸ hreads) hitem
      | none =>
        obtain ⟨t, v, hfill, hdraws, hlength, hless⟩ :=
          fill_draws hspeaks hw hsize hreads hitem ⟨deadline - w.clock⟩
        obtain ⟨bytes, hbytes⟩ := hdraws.session_eq
        have hdevice : t.device = s.device := by rw [hbytes]
        have hsettings : t.settings = s.settings := by rw [hbytes]
        have hkept : s.staged.length ≤ t.staged.length := by
          rw [hbytes, List.length_append]
          exact Nat.le_add_right _ _
        obtain ⟨s', w', hdraws', hgathered⟩ := ih (s := t) (w := v) true (hdevice ▸ hspeaks)
          (hdraws.obliging hw) (hsettings ▸ hsize) (hdraws.clock_eq ▸ hclock) (by omega)
        refine ⟨s', w', hdraws.trans hdraws', ?_⟩
        simp only [hfill]
        exact hgathered

/-! ### Reading -/

/-- A session that can wait for a scripted device which never rejects a timeout and takes no time
unless it is silent. -/
structure ReadsFrom (s : Session Script) (w : Script) : Prop where
  speaks : Script.Speaks s.device
  obliging : w.Obliging
  readBufferSize_pos : 0 < s.settings.readBufferSize
  timeout_pos : 0 < s.settings.timeout.nanos
  tellsDeadline : s.TellsDeadline w

/-- Giving a device its own timeout back leaves its queue and its clock alone. -/
theorem restoreTimeout_reads_clock (hspeaks : Script.Speaks s.device) (w : Script) :
    (s.restoreTimeout w).reads = w.reads ∧ (s.restoreTimeout w).clock = w.clock := by
  obtain ⟨seen, hset⟩ := hspeaks.setTimeout_eq s.settings.timeout w
  have hscript := (w.note seen).answer_script .setTimeout
  rw [restoreTimeout, hset, HostPort.lift, Script.setTimeout]
  rcases hanswer : (w.note seen).answer .setTimeout with ⟨_ | _, v⟩ <;>
    rw [hanswer] at hscript <;> cases hscript <;> exact ⟨rfl, rfl⟩

/-- The gathering of a read has enough fills and starts in time. -/
theorem ReadsFrom.gathered (h : s.ReadsFrom w) (limit : Nat) :
    ∃ s' w', Draws s w s' w' ∧ Gathered limit (s.device.now w + s.settings.timeout.nanos) s' w'
      (gatherLoop limit (s.device.now w + s.settings.timeout.nanos)
        (limit + s.device.patience w + 2) false s w) := by
  have hnow := h.speaks.now_eq w
  have htimeout := h.timeout_pos
  have hqueue : w.reads.length ≤ s.device.patience w := by
    rw [h.speaks.patience_eq]
    exact Nat.le_add_right _ _
  exact gatherLoop_gathered limit _ _ false h.speaks h.obliging h.readBufferSize_pos (by omega)
    (by omega)

/-- The three ways in which a read ends. They are those of its gathering. -/
theorem read_cases (h : s.ReadsFrom w) {limit : Nat} (hlimit : 0 < limit) :
    let data := s.staged ++ stream w.reads
    let n := s.termination.frameLength data limit
    let done := s.read limit w
    s.termination.Ready data limit ∧ done.outcome = .ok (data.take n) ∧
        beyond done.world.reads = beyond w.reads ∧
        done.session.staged ++ stream done.world.reads = data.drop n ∨
      ¬s.termination.Ready data limit ∧ (∃ e, firstFault? w.reads = some e ∧
        done.outcome = .error (.io e) ∧ done.session.staged = data ∧
        done.world.reads = (beyond w.reads).tail) ∨
      ¬s.termination.Ready data limit ∧ firstFault? w.reads = none ∧ done.outcome = .ok data ∧
        done.session.staged = [] ∧ done.world.reads = [] ∧
        s.device.now w + s.settings.timeout.nanos ≤ s.device.now done.world := by
  intro data n done
  obtain ⟨s', w', hdraws, hgathered⟩ := h.gathered limit
  obtain ⟨bytes, hs'⟩ := hdraws.session_eq
  have hdata : s'.staged ++ stream w'.reads = data := hdraws.data_eq
  have hbeyond := hdraws.beyond_eq
  have htermination : s'.termination = s.termination := by rw [hs']
  have hrestored := restoreTimeout_reads_clock (s := s') (by rw [hs']; exact h.speaks)
  generalize hloop : gatherLoop limit (s.device.now w + s.settings.timeout.nanos)
    (limit + s.device.patience w + 2) false s w = result at hgathered
  cases hgathered with
  | ready whole =>
    have hready : s.termination.Ready s'.staged limit := htermination ▸ whole
    have hn : s'.frameLength limit = n := by
      show s'.termination.frameLength s'.staged limit = s.termination.frameLength data limit
      rw [htermination, ← hdata, hready.frameLength_append]
    have hshort : n ≤ s'.staged.length := hn ▸ Termination.frameLength_le _ _ _
    have hdone : done = _ := read_of_gatherLoop hlimit h.tellsDeadline hloop
    rw [hdone, hn, ← hdata, (hrestored w').1]
    exact .inl ⟨hready.append _, by rw [List.take_append_of_le_length hshort], hbeyond,
      (List.drop_append_of_le_length hshort).symm⟩
  | @failed item v e short queued fault =>
    rw [queued, ReadItem.stream_of_fault fault, List.append_nil] at hdata
    rw [queued, ReadItem.beyond_of_fault fault] at hbeyond
    have hdone : done = _ := read_of_gatherLoop_error hlimit h.tellsDeadline hloop
    rw [hdone, ← hdata, ← htermination, firstFault?, ← hbeyond, (hrestored v).1]
    exact .inr (.inl ⟨short, e, fault, rfl, rfl, rfl⟩)
  | @late v short queued silent passed =>
    rw [queued, ReadItem.stream_nil, List.append_nil] at hdata
    rw [queued, ReadItem.beyond_nil] at hbeyond
    have hall : s'.frameLength limit = s'.staged.length :=
      Termination.frameLength_of_not_ready short
    have hnow : s.device.now (s'.restoreTimeout v) = v.clock :=
      (h.speaks.now_eq _).trans (hrestored v).2
    have hdone : done = _ := read_of_gatherLoop hlimit h.tellsDeadline hloop
    rw [hdone, ← hdata, hall, List.take_length, List.drop_length, firstFault?, ← hbeyond,
      (hrestored v).1]
    exact .inr (.inr ⟨htermination ▸ short, rfl, rfl, rfl, silent, passed.trans_eq hnow.symm⟩)

/-- What is staged, the stream and the first fault decide which way it is. -/
theorem read_outcome (h : s.ReadsFrom w) {limit : Nat} (hlimit : 0 < limit) :
    let data := s.staged ++ stream w.reads
    (s.read limit w).outcome =
      if s.termination.Ready data limit then .ok (data.take (s.termination.frameLength data limit))
      else match firstFault? w.reads with
        | some e => .error (.io e)
        | none => .ok data := by
  rcases read_cases h hlimit with ⟨hready, houtcome, -⟩ | ⟨hwait, e, hfault, houtcome, -⟩ |
    ⟨hwait, hnone, houtcome, -⟩
  · exact houtcome.trans (if_pos hready).symm
  · simp only [if_neg hwait, hfault, houtcome]
  · simp only [if_neg hwait, hnone, houtcome]

/-- A read hands out the first frame of what is staged followed by the stream if that frame is as
long as the limit or ends with the terminator, and leaves the rest, the first fault and what comes
after it where they are. Otherwise it fails with the first fault and keeps what it has gathered, or
hands out everything once the deadline has passed. So the pieces in which the stream is delivered,
and the pauses between them, do not matter. -/
theorem read_next_frame (h : s.ReadsFrom w) {limit : Nat} (hlimit : 0 < limit) :
    let data := s.staged ++ stream w.reads
    let frame := data.take (s.termination.frameLength data limit)
    let whole := frame.length = limit ∨ s.termination.Completes frame
    let done := s.read limit w
    (whole → done.outcome = .ok frame ∧ beyond done.world.reads = beyond w.reads ∧
      done.session.staged ++ stream done.world.reads = data.drop frame.length) ∧
    (¬whole → ∀ e, firstFault? w.reads = some e → done.outcome = .error (.io e) ∧
      done.session.staged = data ∧ done.world.reads = (beyond w.reads).tail) ∧
    (¬whole → firstFault? w.reads = none → done.outcome = .ok data ∧ done.session.staged = [] ∧
      done.world.reads = [] ∧
      s.device.now w + s.settings.timeout.nanos ≤ s.device.now done.world) ∧
    ∀ (t : Session Script) (v : Script), t.ReadsFrom v → t.termination = s.termination →
      t.staged ++ stream v.reads = data → firstFault? v.reads = firstFault? w.reads →
      (t.read limit v).outcome = done.outcome := by
  intro data frame whole done
  have hlength : frame.length = s.termination.frameLength data limit :=
    Termination.length_take_frameLength _ _ _
  have hwhole : whole ↔ s.termination.Ready data limit := by
    show (frame.length = limit ∨ _) ↔ _
    rw [hlength]
    rfl
  have hcases := read_cases h hlimit
  rw [hwhole, hlength]
  refine ⟨fun hready ↦ ?_, fun hwait e hfault ↦ ?_, fun hwait hnone ↦ ?_,
    fun t v ht htermination hdata hfault ↦ ?_⟩
  · rcases hcases with ⟨-, hdone⟩ | ⟨hwait, -⟩ | ⟨hwait, -⟩
    · exact hdone
    · exact absurd hready hwait
    · exact absurd hready hwait
  · rcases hcases with ⟨hready, -⟩ | ⟨-, cause, hcause, hfailed⟩ | ⟨-, hnone, -⟩
    · exact absurd hready hwait
    · obtain rfl : cause = e := Option.some.inj (hcause.symm.trans hfault)
      exact hfailed
    · cases hnone.symm.trans hfault
  · rcases hcases with ⟨hready, -⟩ | ⟨-, cause, hcause, -⟩ | ⟨-, -, hlate⟩
    · exact absurd hready hwait
    · cases hnone.symm.trans hcause
    · exact hlate
  · have houtcome := read_outcome ht hlimit
    rw [htermination, hdata, hfault] at houtcome
    exact houtcome.trans (read_outcome h hlimit).symm

/-- An interruption comes between the pieces of the line. The bytes past its end are kept, and so is
the fault behind them. -/
theorem read_next_frame_split :
    let s : Session Script :=
      { port := .onboard, device := Script.device, termination := .enabled 10,
        settings := { timeout := ⟨5⟩, readBufferSize := 2 }, staged := [97] }
    let w : Script :=
      { reads := [.data [98], .fails ⟨.io .interrupted, "again"⟩, .data [10, 99, 100],
                  .fails ⟨.io .brokenPipe, "gone"⟩] }
    let done := s.read 8 w
    done.outcome = .ok [97, 98, 10] ∧ beyond done.world.reads = [.fails ⟨.io .brokenPipe, "gone"⟩] ∧
      done.session.staged ++ stream done.world.reads = [99, 100] := by
  intro s w done
  have hreads : s.ReadsFrom w :=
    ⟨Script.device_speaks, ⟨fun _ ↦ List.not_mem_nil, rfl⟩, by decide, by decide, by decide⟩
  obtain ⟨hwhole, -⟩ := read_next_frame hreads (show 0 < 8 by decide)
  exact hwhole (by decide)

end Session

end SerialLine
