import Mathlib.Data.PFun
import SerialLine.Proofs.Session.Progress
import SerialLine.Proofs.Splitting
/-!
# Operations without a bound on their loops

The loops of a session count down: a push makes no more calls than it has bytes and its device has
patience, a drain pushes no more buffers than bytes are pending, and a read gives up when its device
has used up its patience. Here the same operations are defined without any count
(`Session.perform?`, `Session.close?`). Their loops are first return maps (`PFun.fix`) of what one
turn does: they stop only where the program's own tests say so, and an operation that runs forever
has no value.

Over a device that keeps to its patience (`Device.Patient`) and gives a reader bytes or uses up the
time (`Device.Timely`), a session whose settings pass their checks never gets there
(`perform?_eq`, `close?_eq`): the unbounded operation ends, and with what the counted one comes to.
The sizes of the buffers matter. With a write buffer of no bytes a drain has always another buffer
to push, and with a read buffer of no bytes a read may ask forever for nothing.
-/

set_option autoImplicit false

namespace SerialLine

variable {World : Type}

/-- A loop ends with the value that a turn yields. -/
theorem fix_of_inl {α β : Type} {turn : α → Part (β ⊕ α)} {a : α} {b : β}
    (h : turn a = .some (.inl b)) : PFun.fix turn a = .some b :=
  Part.eq_some_iff.mpr (PFun.fix_stop (h ▸ Part.mem_some _))

/-- It goes on from where a turn ends without one. -/
theorem fix_of_inr {α β : Type} {turn : α → Part (β ⊕ α)} {a next : α}
    (h : turn a = .some (.inr next)) : PFun.fix turn a = PFun.fix turn next :=
  PFun.fix_fwd_eq (h ▸ Part.mem_some _)

namespace Device

/-- One turn of a push, after a number of bytes have been taken: what is left goes to the device,
until all is taken, the device stalls, or it fails. An interruption is not counted. -/
def pushTurn (device : Device World) : Bytes × Nat × World → (Push × World) ⊕ Bytes × Nat × World
  | ([], taken, w) => .inl (⟨taken, .complete⟩, w)
  | (b :: bs, taken, w) =>
    match device.perform (.write (b :: bs)) w with
    | (.ok 0, w) => .inl (⟨taken, .stalled⟩, w)
    | (.ok (n + 1), w) => .inr (bs.drop n, taken + (n + 1), w)
    | (.error e, w) =>
      match e.kind with
      | .interrupted => .inr (b :: bs, taken, w)
      | .timedOut | .wouldBlock => .inl (⟨taken, .stalled⟩, w)
      | _ => .inl (⟨taken, .failed e⟩, w)

/-- Writes until all is taken, the device stalls, or it fails, however often it interrupts. -/
def push? (device : Device World) (bytes : Bytes) (w : World) : Part (Push × World) :=
  PFun.fix (fun p ↦ .some (device.pushTurn p)) (bytes, 0, w)

/-- A device lets the readers of its worlds go on. When it has accepted a time limit and is then
asked for bytes, it uses up patience, or it answers with a byte, or the limit has passed, unless it
fails for good. -/
structure Timely (device : Device World) (sane : World → Prop) : Prop where
  sane_perform : ∀ {w}, sane w → ∀ call, sane (device.perform call w).2
  progress : ∀ {limit room w w' w'' answer}, sane w → 0 < room →
    device.perform (.set (.timeout limit)) w = (.ok (), w') →
    device.perform (.read room) w' = (answer, w'') →
    (∀ e, answer = .error e → e.kind = .timedOut ∨ e.kind = .wouldBlock ∨ e.kind = .interrupted) →
    device.patience w'' < device.patience w ∨ device.patience w'' ≤ device.patience w ∧
      ((∃ bytes, answer = .ok bytes ∧ bytes ≠ []) ∨ device.now w + limit.nanos ≤ device.now w'')

variable {device : Device World}

/-- As many calls are enough as there are bytes and interruptions. Every call takes a byte or uses
up patience, or is the last. -/
theorem fix_pushTurn_eq (h : device.Patient) (calls : Nat) (bytes : Bytes) (w : World)
    (taken : Nat) (hcalls : bytes.length + device.patience w ≤ calls) :
    PFun.fix (fun p ↦ .some (device.pushTurn p)) (bytes, taken, w) =
      .some (⟨taken + (device.pushLoop calls bytes w).1.taken,
        (device.pushLoop calls bytes w).1.ending⟩, (device.pushLoop calls bytes w).2) := by
  fun_induction device.pushLoop calls bytes w generalizing taken with
  | case1 => exact fix_of_inl rfl
  | case2 =>
    rw [List.length_cons] at hcalls
    omega
  | case4 calls b bs w n w' hanswer rest ih =>
    change Nat at n
    have hpatience := h.taken_le hanswer
    have hturn : device.pushTurn (b :: bs, taken, w) = .inr (bs.drop n, taken + (n + 1), w') := by
      simp only [pushTurn, hanswer]
    have hleft : (bs.drop n).length + device.patience w' ≤ calls := by
      rw [List.length_cons] at hcalls
      rw [List.length_drop]
      omega
    rw [fix_of_inr (congrArg Part.some hturn), ih _ hleft]
    simp only [Nat.add_assoc]
    rfl
  | case5 calls b bs w e w' hanswer hkind ih =>
    have hpatience := h.interrupted_lt hanswer hkind
    have hturn : device.pushTurn (b :: bs, taken, w) = .inr (b :: bs, taken, w') := by
      simp only [pushTurn, hanswer, hkind]
    rw [fix_of_inr (congrArg Part.some hturn)]
    exact ih taken (by omega)
  | case3 _ _ _ _ _ hanswer =>
    refine fix_of_inl (congrArg Part.some ?_)
    simp only [pushTurn, hanswer]
    rfl
  | case6 _ _ _ _ _ _ hanswer hkind | case7 _ _ _ _ _ _ hanswer hkind =>
    refine fix_of_inl (congrArg Part.some ?_)
    simp only [pushTurn, hanswer, hkind]
    rfl
  | case8 calls b bs w e w' hanswer hinterrupted htimedOut hwouldBlock =>
    refine fix_of_inl (congrArg Part.some ?_)
    simp only [pushTurn, hanswer]
    rfl

theorem push?_eq (h : device.Patient) (bytes : Bytes) (w : World) :
    device.push? bytes w = .some (device.push bytes w) := by
  rw [push?, fix_pushTurn_eq h _ bytes w 0 (Nat.le_refl _)]
  simp only [Nat.zero_add]
  rfl

end Device

namespace Session

/-! ### The operations -/

/-- Pushes the pending bytes and flushes the device. -/
def flush? (s : Session World) (w : World) : Part (Result World Unit) := do
  let (push, w) ← s.device.push? s.pending w
  let s := s.dropSent push
  match push.ending with
  | .complete => .some (s.flushDevice w)
  | .stalled => .some ⟨.error .timeout, s, w⟩
  | .failed e => .some ⟨.error (if push.taken = 0 then .io e else .timeout), s, w⟩
  | .unfinished => .none

/-- One turn of a drain: a whole write buffer is pushed, if there is one. -/
def drainTurn : Session World × World → Part (Result World Unit ⊕ Session World × World)
  | (s, w) =>
    if s.pending.length < s.settings.writeBufferSize then .some (.inl ⟨.ok (), s, w⟩)
    else do
      let (push, w) ← s.device.push? (s.pending.take s.settings.writeBufferSize) w
      let s := s.dropSent push
      match push.ending with
      | .complete => .some (.inr (s, w))
      | .stalled => .some (.inl ⟨.ok (), s, w⟩)
      | .failed e => .some (.inl ⟨if push.taken = 0 then .error (.io e) else .ok (), s, w⟩)
      | .unfinished => .none

/-- Pushes whole write buffers as long as there are any. -/
def drainAll? (s : Session World) (w : World) : Part (Result World Unit) :=
  PFun.fix drainTurn (s, w)

def drain? (s : Session World) (w : World) : Part (Result World Unit) :=
  match s.settings.writeMode with
  | .flushOnAccess => .some ⟨.ok (), s, w⟩
  | .flushWhenFull => s.drainAll? w

def setWriteBufferSize? (s : Session World) (size : Nat) (w : World) :
    Part (Result World Unit) :=
  match checkBufferSize .write size with
  | .error reason => .some ⟨.error (.invalidArgument reason), s, w⟩
  | .ok () => { s with settings := { s.settings with writeBufferSize := size } }.drain? w

def setWriteMode? (s : Session World) (mode : WriteMode) (w : World) :
    Part (Result World Unit) :=
  let switched (s : Session World) : Session World :=
    { s with settings := { s.settings with writeMode := mode } }
  if mode = .flushOnAccess ∧ s.pending ≠ [] then do
    match ← s.flush? w with
    | ⟨.ok (), s, w⟩ => .some ⟨.ok (), switched s, w⟩
    | failed => .some failed
  else .some ⟨.ok (), switched s, w⟩

def write? (s : Session World) (data : Bytes) (w : World) : Part (Result World Nat) :=
  match s.settings.writeMode with
  | .flushOnAccess => do
    let (push, w) ← s.device.push? data w
    let s := s.countSent push
    match push.ending with
    | .complete =>
      match s.flushDevice w with
      | ⟨.ok (), s, w⟩ => .some ⟨.ok push.taken, s, w⟩
      | ⟨.error e, s, w⟩ => .some ⟨.error e, s, w⟩
      | ⟨.halt h, s, w⟩ => .some ⟨.halt h, s, w⟩
    | .stalled => .some ⟨.ok push.taken, s, w⟩
    | .failed e => .some ⟨if push.taken = 0 then .error (.io e) else .ok push.taken, s, w⟩
    | .unfinished => .none
  | .flushWhenFull => do
    match ← (s.buffer data).drain? w with
    | ⟨.ok (), s', w⟩ => .some ⟨.ok data.length, s', w⟩
    | ⟨.error e, s', w⟩ =>
      let accepted := s.pending.length + data.length - s'.pending.length - s.pending.length
      let unsent := data.length - accepted
      let kept := { s' with pending := s'.pending.take (s'.pending.length - unsent) }
      .some ⟨if accepted = 0 then .error e else .ok accepted, kept, w⟩
    | ⟨.halt h, s', w⟩ => .some ⟨.halt h, s', w⟩

/-- One turn of a read: the staged bytes are filled unless they begin with a whole frame or, after
the first turn, the deadline has passed. -/
def gatherTurn (limit deadline : Nat) :
    Bool × Session World × World → Result World Unit ⊕ Bool × Session World × World
  | (attempted, s, w) =>
    if s.FrameReady limit then .inl ⟨.ok (), s, w⟩
    else
      let remaining := deadline - s.device.now w
      if remaining = 0 ∧ attempted then .inl ⟨.ok (), s, w⟩
      else
        match s.fill ⟨remaining⟩ w with
        | ⟨.ok (), s, w⟩ => .inr (true, s, w)
        | failed => .inl failed

/-- Fills the staged bytes until they begin with a whole frame or the deadline has passed, but at
least once unless the frame is there from the start. -/
def gather? (s : Session World) (limit deadline : Nat) (w : World) : Part (Result World Unit) :=
  PFun.fix (fun p ↦ .some (gatherTurn limit deadline p)) (false, s, w)

def read? (s : Session World) (limit : Nat) (w : World) : Part (Result World Bytes) :=
  if limit = 0 then .some ⟨.ok [], s, w⟩
  else
    let deadline := s.device.now w + s.settings.timeout.nanos
    if clockLimit ≤ deadline then .some ⟨.halt .deadlineOverflow, s, w⟩
    else do
      let gathered ← s.gather? limit deadline w
      let s := gathered.session
      let w := s.restoreTimeout gathered.world
      match gathered.outcome with
      | .ok () =>
        let n := s.frameLength limit
        .some ⟨.ok (s.staged.take n), { s with staged := s.staged.drop n }, w⟩
      | .error e => .some ⟨.error e, s, w⟩
      | .halt h => .some ⟨.halt h, s, w⟩

/-- Performs an operation, or runs forever. -/
def perform? (s : Session World) (w : World) : (op : Operation) → Part (Result World op.Answer)
  | .setWriteBufferSize size => s.setWriteBufferSize? size w
  | .setWriteMode mode => s.setWriteMode? mode w
  | .read limit => s.read? limit w
  | .write data => s.write? data w
  | .flush => s.flush? w
  -- the others have no loop
  | op => .some (s.perform w op)

/-- Closes the session, or runs forever. -/
def close? (s : Session World) (w : World) : Part (Result World Unit) :=
  let closed (s : Session World) : Session World := { s with closed := true }
  match s.pending with
  | [] => .some ⟨.ok (), closed s, w⟩
  | _ :: _ => do
    match ← s.flush? w with
    | ⟨.ok (), s, w⟩ => .some ⟨.ok (), closed s, w⟩
    | ⟨.error _, s, w⟩ =>
      let dropped := s.discardOutput w
      .some ⟨.ok (), closed dropped.session, dropped.world⟩
    | ⟨.halt h, s, w⟩ => .some ⟨.halt h, s, w⟩

/-! ### Writing -/

theorem flush?_eq {s : Session World} (h : s.device.Patient) (w : World) :
    s.flush? w = .some (s.flush w) := by
  have hfinished := Device.push_ne_unfinished h s.pending w
  unfold flush? flush
  simp only [Device.push?_eq h, Part.bind_eq_bind, Part.bind_some]
  cases hpending : s.pending with
  | nil =>
    have hsame : s.dropSent ⟨0, .complete⟩ = s := by simp [dropSent]
    simp [Device.push, Device.pushLoop, hsame]
  | cons b bs =>
    rw [hpending] at hfinished
    cases hending : (s.device.push (b :: bs) w).1.ending with
    | unfinished => exact absurd hending hfinished
    | _ => simp only

/-- More buffers than pending bytes are enough, by induction on the buffers: with a buffer of at
least one byte, fewer bytes are pending after every buffer that went out. -/
theorem drainAll?_eq (buffers : Nat) {s : Session World} (w : World) (h : s.device.Patient)
    (hsize : 0 < s.settings.writeBufferSize) (hbuffers : s.pending.length < buffers) :
    s.drainAll? w = .some (drainLoop buffers s w) := by
  induction buffers generalizing s w with
  | zero => exact absurd hbuffers (Nat.not_lt_zero _)
  | succ buffers ih =>
    unfold drainAll? drainLoop
    split
    · next hpart => exact fix_of_inl (by simp only [drainTurn, if_pos hpart])
    · next hwhole =>
      have hfinished := Device.push_ne_unfinished h (s.pending.take s.settings.writeBufferSize) w
      have hcomplete : (s.device.push (s.pending.take s.settings.writeBufferSize) w).1.ending =
          .complete → (s.pending.take s.settings.writeBufferSize).length ≤
            (s.device.push (s.pending.take s.settings.writeBufferSize) w).1.taken :=
        s.device.length_le_of_pushLoop_complete _ _ w
      have hpushed := Device.push?_eq h (s.pending.take s.settings.writeBufferSize) w
      rw [List.length_take, Nat.min_eq_left (Nat.le_of_not_lt hwhole)] at hcomplete
      generalize s.device.push (s.pending.take s.settings.writeBufferSize) w = pushed at *
      obtain ⟨⟨taken, ending⟩, w'⟩ := pushed
      cases ending with
      | complete =>
        have hturn : drainTurn (s, w) = .some (.inr (s.dropSent ⟨taken, .complete⟩, w')) := by
          simp only [drainTurn, if_neg hwhole, hpushed, Part.bind_eq_bind, Part.bind_some]
        have hsent : s.settings.writeBufferSize ≤ taken := hcomplete rfl
        rw [fix_of_inr hturn]
        refine ih _ h hsize ?_
        show (s.pending.drop _).length < buffers
        rw [List.length_drop]
        simp only
        omega
      | unfinished => exact absurd rfl hfinished
      | stalled | failed e =>
        refine fix_of_inl ?_
        simp only [drainTurn, if_neg hwhole, hpushed, Part.bind_eq_bind, Part.bind_some]

/-- With a buffer of no bytes there is always another one to push, whatever the device does: the
drain never ends. -/
theorem drainAll?_eq_none {s : Session World} (h : s.settings.writeBufferSize = 0) (w : World) :
    s.drainAll? w = .none := by
  refine Part.eq_none_iff.mpr fun done hdone ↦ ?_
  refine PFun.fixInduction (C := fun p ↦ p.1.settings.writeBufferSize = 0 → False) hdone
    (fun p _ ih hsize ↦ ?_) h
  have hpushed : p.1.device.push? [] p.2 = .some (⟨0, .complete⟩, p.2) := fix_of_inl rfl
  have hturn : drainTurn p = .some (.inr (p.1.dropSent ⟨0, .complete⟩, p.2)) := by
    simp only [drainTurn, hsize, Nat.not_lt_zero, if_false, List.take_zero, hpushed,
      Part.bind_eq_bind, Part.bind_some]
  exact ih _ (hturn ▸ Part.mem_some _) hsize

theorem drain?_eq {s : Session World} (h : s.device.Patient)
    (hsize : 0 < s.settings.writeBufferSize) (w : World) : s.drain? w = .some (s.drain w) := by
  unfold drain? drain
  cases s.settings.writeMode with
  | flushOnAccess => rfl
  | flushWhenFull => exact drainAll?_eq _ w h hsize (Nat.lt_succ_self _)

/-- The new size is checked before anything is pushed. -/
theorem setWriteBufferSize?_eq {s : Session World} (h : s.device.Patient) (size : Nat)
    (w : World) : s.setWriteBufferSize? size w = .some (s.setWriteBufferSize size w) := by
  unfold setWriteBufferSize? setWriteBufferSize checkBufferSize
  by_cases hzero : size = 0
  · simp only [if_pos hzero]
  · simp only [if_neg hzero]
    exact drain?_eq (s := { s with settings := { s.settings with writeBufferSize := size } })
      h (Nat.pos_of_ne_zero hzero) w

theorem setWriteMode?_eq {s : Session World} (h : s.device.Patient) (mode : WriteMode)
    (w : World) : s.setWriteMode? mode w = .some (s.setWriteMode mode w) := by
  unfold setWriteMode? setWriteMode
  simp only [flush?_eq h, Part.bind_eq_bind, Part.bind_some]
  split
  · rcases s.flush w with ⟨_ | _ | _, t, w'⟩ <;> rfl
  · rfl

theorem write?_eq {s : Session World} (h : s.device.Patient)
    (hsize : 0 < s.settings.writeBufferSize) (data : Bytes) (w : World) :
    s.write? data w = .some (s.write data w) := by
  unfold write? write
  cases s.settings.writeMode with
  | flushOnAccess =>
    have hfinished := Device.push_ne_unfinished h data w
    simp only [Device.push?_eq h, Part.bind_eq_bind, Part.bind_some]
    cases hending : (s.device.push data w).1.ending with
    | complete =>
      simp only
      rcases (s.countSent (s.device.push data w).1).flushDevice (s.device.push data w).2 with
        ⟨_ | _ | _, t, w'⟩ <;> rfl
    | unfinished => exact absurd hending hfinished
    | _ => simp only
  | flushWhenFull =>
    have hdrained : (s.buffer data).drain? w = .some ((s.buffer data).drain w) :=
      drain?_eq (s := s.buffer data) h hsize w
    simp only [hdrained, Part.bind_eq_bind, Part.bind_some]
    rcases (s.buffer data).drain w with ⟨_ | _ | _, t, w'⟩ <;> rfl

theorem close?_eq {s : Session World} (h : s.device.Patient) (w : World) :
    s.close? w = .some (s.close w) := by
  unfold close? close
  simp only [flush?_eq h, Part.bind_eq_bind, Part.bind_some]
  cases s.pending with
  | nil => rfl
  | cons b bs =>
    simp only
    rcases s.flush w with ⟨_ | _ | _, t, w'⟩ <;> rfl

/-! ### Reading -/

/-- A fill that lets the session go on has used up patience, or has staged a byte, or has used up
its time. -/
theorem fill_progress {sane : World → Prop} {s t : Session World} {limit : Duration}
    {w w' : World} (h : s.device.Timely sane) (hw : sane w) (hroom : 0 < s.settings.readBufferSize)
    (hfill : s.fill limit w = ⟨.ok (), t, w'⟩) :
    (t.device = s.device ∧ t.settings = s.settings ∧ sane w' ∧
      s.staged.length ≤ t.staged.length) ∧
    (s.device.patience w' < s.device.patience w ∨ s.device.patience w' ≤ s.device.patience w ∧
      (s.staged.length < t.staged.length ∨ s.device.now w + limit.nanos ≤ s.device.now w')) := by
  have hsane := h.sane_perform (h.sane_perform hw (.set (.timeout limit)))
    (.read s.settings.readBufferSize)
  have hfills := s.fill_fills limit w
  rw [hfill] at hfills
  cases hfills with
  | staged told asked =>
    rw [told, asked] at hsane
    refine ⟨⟨rfl, rfl, hsane, ?_⟩, (h.progress hw hroom told asked (by simp)).imp_right ?_⟩
    · rw [stage, List.length_append]
      exact Nat.le_add_right _ _
    · refine .imp_right (.imp_left ?_)
      rintro ⟨bytes, hsame, hbytes⟩
      cases hsame
      rw [stage, List.length_append]
      exact Nat.lt_add_of_pos_right (List.length_pos_iff.mpr hbytes)
  | silent told asked soft =>
    rw [told, asked] at hsane
    refine ⟨⟨rfl, rfl, hsane, Nat.le_refl _⟩, ?_⟩
    have hprogress := h.progress hw hroom told asked fun e he ↦ by
      cases he
      exact IoError.not_isFault_iff.mp soft
    exact hprogress.imp_right (.imp_right fun hdone ↦ .inr (hdone.resolve_left (by simp)))

/-- Patience and room in the frame bound the fills that are still to come, by induction on the fills
that are allowed. Two more are allowed: one that uses up the time, and one to see that it has. -/
theorem fix_gatherTurn_eq {sane : World → Prop} (limit deadline fills : Nat) (attempted : Bool)
    {s : Session World} {w : World} (h : s.device.Timely sane) (hw : sane w)
    (hroom : 0 < s.settings.readBufferSize)
    (hfills : limit - s.staged.length + s.device.patience w + 2 ≤ fills) :
    PFun.fix (fun p ↦ .some (gatherTurn limit deadline p)) (attempted, s, w) =
      .some (gatherLoop limit deadline fills attempted s w) := by
  induction fills generalizing attempted s w with
  | zero => omega
  | succ fills ih =>
    unfold gatherLoop
    split
    · next hready =>
      exact fix_of_inl (congrArg Part.some (by simp only [gatherTurn, if_pos hready]))
    · next hready =>
      have hstaged : s.staged.length < limit := s.termination.length_lt_of_not_ready hready
      simp only
      split
      · next hover =>
        refine fix_of_inl (congrArg Part.some ?_)
        simp only [gatherTurn, if_neg hready, if_pos hover]
      · next hleft =>
        rcases hfill : s.fill ⟨deadline - s.device.now w⟩ w with ⟨_ | _ | _, t, w'⟩
        · obtain ⟨⟨hdevice, hsettings, hw', hmore⟩, hprogress⟩ := fill_progress h hw hroom hfill
          have hturn : gatherTurn limit deadline (attempted, s, w) = .inr (true, t, w') := by
            simp only [gatherTurn, if_neg hready, if_neg hleft, hfill]
          rw [fix_of_inr (congrArg Part.some hturn)]
          simp only
          by_cases hlate : deadline - s.device.now w' = 0
          -- the time is over: the next turn ends the loop, whatever is staged
          · obtain ⟨fills, rfl⟩ : ∃ n, fills = n + 1 := ⟨fills - 1, by omega⟩
            refine fix_of_inl (congrArg Part.some ?_)
            simp only [gatherTurn, gatherLoop, hdevice, hlate, and_self, if_true]
            split <;> rfl
          · refine ih true (hdevice ▸ h) hw' (hsettings ▸ hroom) ?_
            rw [hdevice]
            simp only at hprogress
            omega
        all_goals
          refine fix_of_inl (congrArg Part.some ?_)
          simp only [gatherTurn, if_neg hready, if_neg hleft, hfill]

theorem read?_eq {sane : World → Prop} {s : Session World} {w : World}
    (h : s.device.Timely sane) (hw : sane w) (hroom : 0 < s.settings.readBufferSize)
    (limit : Nat) : s.read? limit w = .some (s.read limit w) := by
  unfold read? read
  split
  · rfl
  · simp only
    split
    · rfl
    · rw [gather?, fix_gatherTurn_eq limit _ (limit + s.device.patience w + 2) false h hw hroom
        (by omega)]
      simp only [Part.bind_eq_bind, Part.bind_some]
      rcases gatherLoop limit (s.device.now w + s.settings.timeout.nanos)
        (limit + s.device.patience w + 2) false s w with ⟨_ | _ | _, t, w'⟩ <;> rfl

/-! ### All operations -/

/-- Over a device that is patient with writers and lets readers go on, a session with room in both
buffers ends whatever it is asked, and with what the counted operation comes to. -/
theorem perform?_eq {sane : World → Prop} {s : Session World} {w : World}
    (hpatient : s.device.Patient) (htimely : s.device.Timely sane) (hw : sane w)
    (hsettings : s.settings.validate = .ok ()) (op : Operation) :
    s.perform? w op = .some (s.perform w op) := by
  obtain ⟨-, hread, hwrite⟩ := s.settings.validate_eq_ok_iff.mp hsettings
  cases op with
  | setWriteBufferSize size => exact setWriteBufferSize?_eq hpatient size w
  | setWriteMode mode => exact setWriteMode?_eq hpatient mode w
  | read limit => exact read?_eq htimely hw hread limit
  | write data => exact write?_eq hpatient hwrite data w
  | flush => exact flush?_eq hpatient w
  | _ => rfl

end Session

end SerialLine
