import SerialLine.Proofs.Session.Devices
import SerialLine.Proofs.Session.Faults
import SerialLine.Proofs.Session.Setters
/-!
# Writing by whole buffers

Buffering, a session hands its data to the device in whole write buffers and keeps the rest. Over a
device that takes at least a byte of everything it is offered (`Device.Absorbs`), short counts and
interruptions do not matter: `Batched` says that exactly the whole buffers have gone out, in writes
of no more than a buffer, and that the rest of the bytes is left. How the data was cut into writes
does not matter either, since the leftover of one write comes before the data of the next one
(`Batched.append`). `drainLoop_absorbs` is the induction on the buffers and `run_absorbs` the one on
the writes.

Over an arbitrary device, `drainLoop_made` says when a drain may leave a whole buffer behind: a
write to the device has stalled or met a fault. `writes_batched` puts both together, for writes and
for changes of the buffer size.
-/

set_option autoImplicit false

namespace SerialLine

/-! ### Whole buffers -/

/-- The number of bytes in the whole buffers that some bytes fill. -/
def wholeBuffers (size length : Nat) : Nat := length / size * size

theorem wholeBuffers_le (size length : Nat) : wholeBuffers size length ≤ length :=
  Nat.div_mul_le_self length size

theorem wholeBuffers_of_lt {size length : Nat} (h : length < size) :
    wholeBuffers size length = 0 := by
  rw [wholeBuffers, Nat.div_eq_of_lt h, Nat.zero_mul]

/-- One buffer out of the way. -/
theorem wholeBuffers_of_le {size length : Nat} (hsize : 0 < size) (h : size ≤ length) :
    wholeBuffers size length = size + wholeBuffers size (length - size) := by
  rw [wholeBuffers, Nat.div_eq_sub_div hsize h, Nat.add_mul, Nat.one_mul, Nat.add_comm]
  rfl

/-- What is left over when the whole buffers have gone. -/
theorem length_drop_wholeBuffers (size : Nat) (bytes : Bytes) :
    (bytes.drop (wholeBuffers size bytes.length)).length = bytes.length % size := by
  rw [List.length_drop, wholeBuffers, Nat.mod_eq_sub_div_mul]

/-- The whole buffers of two pieces of data are those of the first piece and those that the rest of
it fills together with the second piece. -/
theorem wholeBuffers_append {size : Nat} (hsize : 0 < size) (first second : Bytes) :
    wholeBuffers size (first ++ second).length =
      wholeBuffers size first.length +
        wholeBuffers size (first.drop (wholeBuffers size first.length) ++ second).length := by
  rw [List.length_append, List.length_append, length_drop_wholeBuffers]
  have hsplit : first.length + second.length =
      first.length % size + second.length + first.length / size * size := by
    have := Nat.div_add_mod' first.length size
    omega
  rw [hsplit, wholeBuffers, Nat.add_mul_div_right _ _ hsize, Nat.add_mul, Nat.add_comm]
  rfl

/-- The whole buffers of some bytes have gone to the device, in writes of a buffer at most, and the
rest of the bytes is left. -/
structure Batched (size : Nat) (bytes : Bytes) (made : List Exchange) (left : Bytes) : Prop where
  taken_eq : taken made = bytes.take (wholeBuffers size bytes.length)
  left_eq : left = bytes.drop (wholeBuffers size bytes.length)
  offers : ∀ x ∈ made, ∃ offered, x.call = .write offered ∧ offered.length ≤ size

namespace Batched

variable {size : Nat} {bytes left : Bytes} {made : List Exchange}

theorem length_left (h : Batched size bytes made left) : left.length = bytes.length % size := by
  rw [h.left_eq, length_drop_wholeBuffers]

theorem nil (h : bytes.length < size) : Batched size bytes [] bytes where
  taken_eq := by rw [wholeBuffers_of_lt h]; rfl
  left_eq := by rw [wholeBuffers_of_lt h]; rfl
  offers _ hx := absurd hx List.not_mem_nil

/-- Data that comes in two pieces leaves in the same buffers as in one piece. -/
theorem append (hsize : 0 < size) {second left' : Bytes} {made' : List Exchange}
    (h : Batched size bytes made left) (hlater : Batched size (left ++ second) made' left') :
    Batched size (bytes ++ second) (made ++ made') left' := by
  have hfront := wholeBuffers_le size bytes.length
  have hrest : (bytes ++ second).drop (wholeBuffers size bytes.length) = left ++ second := by
    rw [h.left_eq, List.drop_append_of_le_length hfront]
  have hwhole := wholeBuffers_append hsize bytes second
  rw [← h.left_eq] at hwhole
  refine ⟨?_, ?_, fun x hx ↦ (List.mem_append.mp hx).elim (h.offers x) (hlater.offers x)⟩
  · rw [hwhole, List.take_add, hrest, List.take_append_of_le_length hfront, ← h.taken_eq,
      ← hlater.taken_eq, taken_append]
  · rw [hwhole, ← List.drop_drop, hrest, ← hlater.left_eq]

end Batched

/-! ### Devices that take what they are offered, bit by bit -/

namespace Device

variable {World : Type} {device : Device World} {good : World → Prop}

/-- In good worlds a device takes at least one byte of what it is offered, and no more than that,
unless it interrupts the writer, which uses up patience. Writing leads from good worlds to good
ones. -/
structure Absorbs (device : Device World) (good : World → Prop) : Prop where
  good_write : ∀ {w}, good w → ∀ offered, good (device.perform (.write offered) w).2
  took : ∀ {w offered w'} {n : Nat}, good w → offered ≠ [] →
    device.perform (.write offered) w = (.ok n, w') →
      0 < n ∧ n ≤ offered.length ∧ device.patience w' ≤ device.patience w
  interrupted : ∀ {w offered w'} {e : IoError}, good w → offered ≠ [] →
    device.perform (.write offered) w = (.error e, w') →
      e.kind = .interrupted ∧ device.patience w' < device.patience w

theorem Absorbs.recorded (h : device.Absorbs good) :
    device.recorded.Absorbs fun v ↦ good v.1 where
  good_write hv offered := h.good_write hv offered
  took := by
    intro v offered v' n hv hne hanswer
    obtain ⟨hn, rfl⟩ := Prod.mk.inj hanswer
    exact h.took hv hne (Prod.ext hn rfl)
  interrupted := by
    intro v offered v' e hv hne hanswer
    obtain ⟨he, rfl⟩ := Prod.mk.inj hanswer
    exact h.interrupted hv hne (Prod.ext he rfl)

/-- As many calls are enough as there are bytes and interruptions, and then all bytes are taken. -/
theorem pushLoop_absorbs (h : device.Absorbs good) (calls : Nat) (bytes : Bytes) (w : World)
    (hw : good w) (hcalls : bytes.length + device.patience w ≤ calls) :
    (device.pushLoop calls bytes w).1 = ⟨bytes.length, .complete⟩ ∧
      good (device.pushLoop calls bytes w).2 := by
  have hgood {offered : Bytes} {w w' : World} {answer : Except IoError Nat} (hw : good w)
      (hanswer : device.perform (.write offered) w = (answer, w')) : good w' := by
    have hlater := h.good_write hw offered
    rwa [hanswer] at hlater
  fun_induction device.pushLoop calls bytes w with
  | case1 => exact ⟨rfl, hw⟩
  | case2 calls b bs =>
    rw [List.length_cons] at hcalls
    omega
  | case3 calls b bs w w' hanswer =>
    exact absurd (h.took hw (List.cons_ne_nil b bs) hanswer).1 (Nat.lt_irrefl 0)
  | case4 calls b bs w n w' hanswer rest ih =>
    change Nat at n
    obtain ⟨-, hle, hpatience⟩ := h.took hw (List.cons_ne_nil b bs) hanswer
    rw [List.length_cons] at hle hcalls
    obtain ⟨hall, hlater⟩ := ih (hgood hw hanswer) (by rw [List.length_drop]; omega)
    refine ⟨?_, hlater⟩
    show Push.mk (n + 1 + rest.1.taken) rest.1.ending = ⟨bs.length + 1, .complete⟩
    have hcount : n + 1 + (bs.length - n) = bs.length + 1 := by omega
    rw [show rest.1 = _ from hall, List.length_drop, hcount]
  | case5 calls b bs w e w' hanswer hkind ih =>
    obtain ⟨-, hpatience⟩ := h.interrupted hw (List.cons_ne_nil b bs) hanswer
    exact ih (hgood hw hanswer) (by omega)
  | case6 calls b bs w e w' hanswer hkind | case7 calls b bs w e w' hanswer hkind =>
    rw [(h.interrupted hw (List.cons_ne_nil b bs) hanswer).1] at hkind
    cases hkind
  | case8 calls b bs w e w' hanswer hinterrupted =>
    exact absurd (h.interrupted hw (List.cons_ne_nil b bs) hanswer).1 hinterrupted

theorem push_absorbs (h : device.Absorbs good) (bytes : Bytes) {w : World} (hw : good w) :
    ∃ w', device.push bytes w = (⟨bytes.length, .complete⟩, w') ∧ good w' := by
  obtain ⟨hpush, hgood⟩ := pushLoop_absorbs h _ bytes w hw (Nat.le_refl _)
  exact ⟨_, Prod.ext hpush rfl, hgood⟩

end Device

namespace Session

variable {World : Type} {log : World → List Exchange} {good : World → Prop}

/-! ### Draining -/

/-- The session after whole buffers of the given size have left it. -/
def withoutBuffers (s : Session World) (size : Nat) : Session World :=
  s.dropSent ⟨wholeBuffers size s.pending.length, .complete⟩

/-- Buffers may leave before more data comes in, or after. -/
theorem withoutBuffers_buffer (s : Session World) {size : Nat} (hsize : 0 < size)
    (first second : Bytes) :
    (((s.buffer first).withoutBuffers size).buffer second).withoutBuffers size =
      (s.buffer (first ++ second)).withoutBuffers size := by
  have hwhole := wholeBuffers_append hsize (s.pending ++ first) second
  have hfront := wholeBuffers_le size (s.pending ++ first).length
  unfold withoutBuffers
  simp only [dropSent, buffer, ← List.append_assoc, hwhole, ← List.drop_drop,
    List.drop_append_of_le_length hfront, Nat.add_assoc]

theorem withoutBuffers_of_lt {s : Session World} {size : Nat} (h : s.pending.length < size) :
    s.withoutBuffers size = s := by
  rw [withoutBuffers, wholeBuffers_of_lt h]
  rfl

theorem buffer_nil (s : Session World) : s.buffer [] = s := by
  rw [buffer, List.append_nil]

/-- After one buffer, the others leave. -/
theorem dropSent_withoutBuffers (s : Session World) {size : Nat} (hsize : 0 < size)
    (hwhole : size ≤ s.pending.length) :
    (s.dropSent ⟨size, .complete⟩).withoutBuffers size = s.withoutBuffers size := by
  have hrest : (s.pending.drop size).length = s.pending.length - size := List.length_drop
  unfold withoutBuffers
  rw [wholeBuffers_of_le hsize hwhole]
  simp only [dropSent, hrest, List.drop_drop, Nat.add_assoc]

/-- The whole buffers go out, by induction on the buffers that may yet do so. -/
theorem drainLoop_absorbs (log : World → List Exchange) (buffers : Nat) {s : Session World}
    (h : s.device.Absorbs good) (hsize : 0 < s.settings.writeBufferSize) {w : World} (hw : good w)
    (hbuffers : s.pending.length < buffers) :
    ∃ w', drainLoop buffers s w =
        ⟨.ok (), s.withoutBuffers s.settings.writeBufferSize, w'⟩ ∧ good w' ∧
      (s.device.Logs log → taken (log w') = taken (log w) ++
        s.pending.take (wholeBuffers s.settings.writeBufferSize s.pending.length)) := by
  induction buffers generalizing s w with
  | zero => exact absurd hbuffers (Nat.not_lt_zero _)
  | succ buffers ih =>
    unfold drainLoop
    by_cases hless : s.pending.length < s.settings.writeBufferSize
    · rw [if_pos hless, withoutBuffers, wholeBuffers_of_lt hless]
      exact ⟨w, rfl, hw, fun _ ↦ (List.append_nil _).symm⟩
    · have hwhole := Nat.le_of_not_lt hless
      obtain ⟨w', hpush, hw'⟩ :=
        Device.push_absorbs h (s.pending.take s.settings.writeBufferSize) hw
      have hpushed := fun hlog : s.device.Logs log ↦
        Device.push_pushes hlog (s.pending.take s.settings.writeBufferSize) w
      rw [if_neg hless]
      rw [List.length_take, Nat.min_eq_left hwhole] at hpush
      rw [hpush] at hpushed
      have hfewer : (s.pending.drop s.settings.writeBufferSize).length < buffers := by
        rw [List.length_drop]
        omega
      obtain ⟨w'', hrest, hw'', htaken⟩ :=
        ih (s := s.dropSent ⟨s.settings.writeBufferSize, .complete⟩) h hsize hw' hfewer
      simp only [hpush]
      refine ⟨w'', ?_, hw'', fun hlog ↦ ?_⟩
      · rw [hrest]
        exact congrArg (Result.mk _ · _) (s.dropSent_withoutBuffers hsize hwhole)
      · obtain ⟨made, hmade, hpushes⟩ := hpushed hlog
        rw [htaken hlog, hmade, taken_append, hpushes.taken_eq, List.append_assoc,
          wholeBuffers_of_le hsize hwhole, List.take_add, List.take_take, Nat.min_self]
        show _ ++ (_ ++ (s.pending.drop _).take (wholeBuffers _ (s.pending.drop _).length)) = _
        rw [List.length_drop]
        rfl

/-- Whatever the device does, no write offers more than a buffer, and a drain that ends with a whole
buffer left or with an error has met a stall or a fault. By induction on the buffers. -/
theorem drainLoop_made (buffers : Nat) {s : Session World} (hlog : s.device.Logs log) (w : World) :
    let drained := drainLoop buffers s w
    ∃ made, log drained.world = log w ++ made ∧
      (∀ x ∈ made, ∃ offered, x.call = .write offered ∧
        offered.length ≤ s.settings.writeBufferSize) ∧
      ((∃ e, drained.outcome = .error e) ∨ drained.outcome = .ok () ∧
          s.settings.writeBufferSize ≤ drained.session.pending.length →
        writeStalled made = true ∨ faults made ≠ []) := by
  have hnothing : ∀ x ∈ ([] : List Exchange), ∃ offered, x.call = .write offered ∧
      offered.length ≤ s.settings.writeBufferSize := fun _ hx ↦ absurd hx List.not_mem_nil
  induction buffers generalizing s w with
  | zero => exact ⟨[], (List.append_nil _).symm, hnothing, by simp [drainLoop]⟩
  | succ buffers ih =>
    unfold drainLoop
    by_cases hless : s.pending.length < s.settings.writeBufferSize
    · rw [if_pos hless]
      refine ⟨[], (List.append_nil _).symm, hnothing, ?_⟩
      rintro (⟨e, herror⟩ | ⟨-, hleft⟩)
      · cases herror
      · exact absurd hless (Nat.not_lt_of_le hleft)
    · rw [if_neg hless]
      obtain ⟨made, hmade, hpushes⟩ :=
        Device.push_pushes hlog (s.pending.take s.settings.writeBufferSize) w
      rcases hpush : s.device.push (s.pending.take s.settings.writeBufferSize) w with
        ⟨⟨n, ending⟩, w'⟩
      rw [hpush] at hmade hpushes
      have hoffers : ∀ x ∈ made, ∃ offered, x.call = .write offered ∧
          offered.length ≤ s.settings.writeBufferSize := by
        intro x hx
        obtain ⟨offered, hcall, -, hsuffix⟩ := hpushes.offers x hx
        exact ⟨offered, hcall, Nat.le_trans hsuffix.length_le (List.length_take_le _ _)⟩
      cases ending with
      | complete =>
        obtain ⟨later, hlater, hoffers', hstuck⟩ :=
          ih (s := s.dropSent ⟨n, .complete⟩) hlog w' hnothing
        refine ⟨made ++ later, ?_, fun x hx ↦ ?_, fun hend ↦ ?_⟩
        · rw [← List.append_assoc, ← hmade]
          exact hlater
        · exact (List.mem_append.mp hx).elim (hoffers x) (hoffers' x)
        · rw [writeStalled_append, faults_append, Bool.or_eq_true]
          rcases hstuck hend with hstalled | hfault
          · exact .inl (.inr hstalled)
          · exact .inr (List.append_ne_nil_of_right_ne_nil _ hfault)
      | stalled =>
        exact ⟨made, hmade, hoffers, fun _ ↦ .inl (hpushes.writeStalled_iff.mpr rfl)⟩
      | failed e =>
        refine ⟨made, hmade, hoffers, fun _ ↦ .inr ?_⟩
        rw [hpushes.faults_eq]
        exact List.cons_ne_nil e []
      | unfinished => exact ⟨made, hmade, hoffers, by simp⟩

theorem drain_made {s : Session World} (hmode : s.settings.writeMode = .flushWhenFull)
    (hlog : s.device.Logs log) (w : World) :
    ∃ made, log (s.drain w).world = log w ++ made ∧
      (∀ x ∈ made, ∃ offered, x.call = .write offered ∧
        offered.length ≤ s.settings.writeBufferSize) ∧
      ((∃ e, (s.drain w).outcome = .error e) ∨ (s.drain w).outcome = .ok () ∧
          s.settings.writeBufferSize ≤ (s.drain w).session.pending.length →
        writeStalled made = true ∨ faults made ≠ []) := by
  rw [drain_eq_drainLoop hmode]
  exact drainLoop_made _ hlog w

/-- Over a device that takes what it is offered, bit by bit, exactly the whole buffers go out. -/
theorem drain_absorbs (log : World → List Exchange) {s : Session World} (h : s.device.Absorbs good)
    (hmode : s.settings.writeMode = .flushWhenFull) (hsize : 0 < s.settings.writeBufferSize)
    {w : World} (hw : good w) :
    ∃ w', s.drain w = ⟨.ok (), s.withoutBuffers s.settings.writeBufferSize, w'⟩ ∧ good w' ∧
      (s.device.Logs log → ∃ made, log w' = log w ++ made ∧
        Batched s.settings.writeBufferSize s.pending made
          (s.withoutBuffers s.settings.writeBufferSize).pending) := by
  obtain ⟨w', hdrain, hw', htaken⟩ :=
    drainLoop_absorbs log _ h hsize hw (Nat.lt_succ_self s.pending.length)
  refine ⟨w', by rw [drain_eq_drainLoop hmode, hdrain], hw', fun hlog ↦ ?_⟩
  obtain ⟨made, hmade, hoffers, -⟩ := drain_made hmode hlog w
  rw [drain_eq_drainLoop hmode, hdrain] at hmade
  refine ⟨made, hmade, ?_, rfl, hoffers⟩
  have hboth := htaken hlog
  rw [show log w' = _ from hmade, taken_append] at hboth
  exact List.append_cancel_left hboth

/-! ### One operation -/

/-- The session with write buffers of another size. -/
def resized (s : Session World) (size : Nat) : Session World :=
  { s with settings := { s.settings with writeBufferSize := size } }

section Absorbs

variable {s : Session World} (h : s.device.Absorbs good)
  (hmode : s.settings.writeMode = .flushWhenFull) {w : World} (hw : good w)
include h hmode hw

/-- A write accepts all of its data, and exactly the whole buffers go out. -/
theorem write_absorbs (hsize : 0 < s.settings.writeBufferSize) (data : Bytes) :
    (∃ w', s.write data w =
        ⟨.ok data.length, (s.buffer data).withoutBuffers s.settings.writeBufferSize, w'⟩ ∧
      good w') ∧
    Batched s.settings.writeBufferSize (s.pending ++ data) (s.exchanges w (.write data))
      (s.write data w).session.pending := by
  obtain ⟨w', hdrain, hw', -⟩ :=
    drain_absorbs (fun _ ↦ []) (s := s.buffer data) h hmode hsize hw
  obtain ⟨v, hrecorded, -, hbatched⟩ := drain_absorbs Prod.snd
    (s := s.recorded.buffer data) (w := (w, [])) h.recorded hmode hsize hw
  have hwrite := write_of_drain_ok hmode hdrain
  have hperform : s.recorded.write data (w, []) = _ := s.perform_recorded w (.write data)
  rw [write_of_drain_ok (s := s.recorded) hmode hrecorded] at hperform
  obtain ⟨-, -, rfl⟩ := Result.mk.inj hperform
  obtain ⟨made, hmade, hbatched⟩ := hbatched s.device.recorded_logs
  obtain rfl : s.exchanges w (.write data) = made := hmade
  exact ⟨⟨w', hwrite, hw'⟩, hwrite ▸ hbatched⟩

/-- The buffers that are whole by the new measure go out, and no others. -/
theorem setWriteBufferSize_absorbs {size : Nat} (hsize : 0 < size) :
    (∃ w', s.setWriteBufferSize size w =
        ⟨.ok (), (s.resized size).withoutBuffers size, w'⟩) ∧
    Batched size s.pending (s.exchanges w (.setWriteBufferSize size))
      (s.setWriteBufferSize size w).session.pending := by
  obtain ⟨w', hdrain, -, -⟩ :=
    drain_absorbs (fun _ ↦ []) (s := s.resized size) h hmode hsize hw
  obtain ⟨v, hrecorded, -, hbatched⟩ := drain_absorbs Prod.snd
    (s := s.recorded.resized size) (w := (w, [])) h.recorded hmode hsize hw
  have hresize := (s.setWriteBufferSize_eq (Nat.ne_of_gt hsize) w).trans hdrain
  have hperform : s.recorded.setWriteBufferSize size (w, []) = _ :=
    s.perform_recorded w (.setWriteBufferSize size)
  rw [s.recorded.setWriteBufferSize_eq (Nat.ne_of_gt hsize) (w, [])] at hperform
  obtain ⟨-, -, rfl⟩ := Result.mk.inj (hrecorded.symm.trans hperform)
  obtain ⟨made, hmade, hbatched⟩ := hbatched s.device.recorded_logs
  obtain rfl : s.exchanges w (.setWriteBufferSize size) = made := hmade
  exact ⟨⟨w', hresize⟩, hresize ▸ hbatched⟩

end Absorbs

end Session

/-! ### Scripts -/

/-- An answer that takes some of what is offered, or puts the writer off. -/
def WriteItem.Obliges : WriteItem → Prop
  | .takes limit => 0 < limit
  | .fails e => e.toIo.kind = .interrupted

namespace Script

/-- Every answer of the list takes some of what is offered, or puts the writer off. -/
def Absorbing (s : Script) : Prop := ∀ item ∈ s.writes, item.Obliges

theorem Absorbing.write {s : Script} (h : s.Absorbing) (offered : Bytes) :
    (s.write offered).2.Absorbing ∧ (∀ n, (s.write offered).1 = .ok n → offered ≠ [] → 0 < n) ∧
      ∀ e, (s.write offered).1 = .error e → e.toIo.kind = .interrupted := by
  cases hwrites : s.writes with
  | nil =>
    have hwrite : s.write offered = (.ok offered.length,
        { s with output := s.output ++ offered, clock := s.clock + s.pace }) := by
      rw [Script.write, hwrites]
    rw [hwrite]
    refine ⟨h, fun n hn hne ↦ ?_, fun e he ↦ by cases he⟩
    rw [← Except.ok.inj hn]
    exact List.length_pos_iff.mpr hne
  | cons item items =>
    rw [Absorbing, hwrites, List.forall_mem_cons] at h
    obtain ⟨hitem, hitems⟩ := h
    cases item with
    | takes limit =>
      have hwrite : s.write offered = (.ok (min limit offered.length), { s with
          writes := items, output := s.output ++ offered.take limit,
          clock := s.clock + s.pace }) := by
        rw [Script.write, hwrites]
      rw [hwrite]
      refine ⟨hitems, fun n hn hne ↦ ?_, fun e he ↦ by cases he⟩
      rw [← Except.ok.inj hn]
      exact Nat.lt_min.mpr ⟨hitem, List.length_pos_iff.mpr hne⟩
    | fails cause =>
      have hwrite : s.write offered =
          (.error cause, { s with writes := items, clock := s.clock + s.pace }) := by
        rw [Script.write, hwrites]
      rw [hwrite]
      refine ⟨hitems, fun n hn ↦ (by cases hn), fun e he ↦ ?_⟩
      rw [← Except.error.inj he]
      exact hitem

/-- A scripted device takes what it is offered, bit by bit, if its answers do. -/
theorem device_absorbs : Script.device.Absorbs Absorbing where
  good_write := by
    intro s hs offered
    exact (Absorbing.write (s := s.note (.call (.write offered))) hs offered).1
  took := by
    intro s offered s' n hs hne hanswer
    have hle := Session.script_takesWhatIsOffered offered s n (congrArg Prod.fst hanswer)
    refine ⟨?_, hle, device_speaks.patient.taken_le hanswer⟩
    have hwrite := (Absorbing.write (s := s.note (.call (.write offered))) hs offered).2.1
    change HostPort.lift ((s.note (.call (.write offered))).write offered) = _ at hanswer
    rcases hdone : (s.note (.call (.write offered))).write offered with ⟨e | m, t⟩ <;>
      rw [hdone] at hanswer hwrite
    · cases hanswer
    · rw [← Except.ok.inj (congrArg Prod.fst hanswer)]
      exact hwrite m rfl hne
  interrupted := by
    intro s offered s' e hs _ hanswer
    have hkind : e.kind = .interrupted := by
      have hwrite := (Absorbing.write (s := s.note (.call (.write offered))) hs offered).2.2
      change HostPort.lift ((s.note (.call (.write offered))).write offered) = _ at hanswer
      rcases hdone : (s.note (.call (.write offered))).write offered with ⟨cause | m, t⟩ <;>
        rw [hdone] at hanswer hwrite
      · rw [← Except.error.inj (congrArg Prod.fst hanswer)]
        exact hwrite cause rfl
      · cases hanswer
    exact ⟨hkind, device_speaks.patient.interrupted_lt hanswer hkind⟩

end Script

namespace Session

variable {World : Type} {good : World → Prop}

/-! ### Writes one after another -/

/-- A write that has accepted all of its data. -/
def Step.AcceptsAll : Step World → Prop
  | ⟨.write data, _, outcome, _, _⟩ => outcome = .ok data.length
  | _ => False

/-- By induction on the writes. Each of them leaves less than a buffer to the next one. -/
theorem run_absorbs {s : Session World} (h : s.device.Absorbs good)
    (hmode : s.settings.writeMode = .flushWhenFull)
    (hless : s.pending.length < s.settings.writeBufferSize) {w : World} (hw : good w)
    (datas : List Bytes) :
    let run := s.run w (datas.map .write)
    (∀ x ∈ run.steps, x.AcceptsAll) ∧
      Batched s.settings.writeBufferSize (s.pending ++ datas.flatten) run.exchanges
        run.session.pending ∧
      run.session = (s.buffer datas.flatten).withoutBuffers s.settings.writeBufferSize ∧
      good run.world := by
  have hsize : 0 < s.settings.writeBufferSize := Nat.lt_of_le_of_lt (Nat.zero_le _) hless
  induction datas generalizing s w with
  | nil =>
    refine ⟨fun x hx ↦ absurd hx List.not_mem_nil, ?_, ?_, hw⟩
    · rw [List.flatten_nil, List.append_nil]
      exact .nil hless
    · rw [List.flatten_nil, buffer_nil, withoutBuffers_of_lt hless]
      rfl
  | cons data datas ih =>
    obtain ⟨⟨w', hwrite, hw'⟩, hbatched⟩ := write_absorbs h hmode hw hsize data
    have hperform : s.perform w (.write data) = _ := hwrite
    rw [hwrite] at hbatched
    have hless' : ((s.buffer data).withoutBuffers s.settings.writeBufferSize).pending.length <
        s.settings.writeBufferSize := by
      rw [hbatched.length_left]
      exact Nat.mod_lt _ hsize
    obtain ⟨haccept, hrest, hsession, hgood⟩ :=
      ih (s := (s.buffer data).withoutBuffers s.settings.writeBufferSize) h hmode hless' hw' hsize
    rw [List.map_cons, List.flatten_cons, ← List.append_assoc]
    simp only [run_cons_steps, run_cons_session, run_cons_exchanges, hperform]
    refine ⟨fun x hx ↦ ?_, hbatched.append hsize hrest, ?_, ?_⟩
    · rcases List.mem_cons.mp hx with rfl | hlater
      · show (s.perform w (.write data)).outcome = .ok data.length
        rw [hperform]
      · exact haccept x hlater
    · rw [hsession]
      exact s.withoutBuffers_buffer hsize data datas.flatten
    · show good ((s.perform w (.write data)).session.run (s.perform w (.write data)).world
        (datas.map .write)).world
      rw [hperform]
      exact hgood

/-- What a list of writes, and a change of the buffer size after them, come to over a device that
takes what it is offered, bit by bit. -/
structure BatchesWrites (s : Session World) (w : World) (datas : List Bytes) : Prop where
  acceptsAll : ∀ x ∈ (s.run w (datas.map .write)).steps, x.AcceptsAll
  batched : Batched s.settings.writeBufferSize (s.pending ++ datas.flatten)
    (s.run w (datas.map .write)).exchanges (s.run w (datas.map .write)).session.pending
  /-- It does not matter how the data is cut. -/
  session_eq : (s.run w (datas.map .write)).session = (s.write datas.flatten w).session
  resizing : ∀ size, 0 < size →
    let run := s.run w (datas.map .write)
    let done := run.session.setWriteBufferSize size run.world
    done.outcome = .ok () ∧ done.session.settings.writeBufferSize = size ∧
      Batched size run.session.pending
        (run.session.exchanges run.world (.setWriteBufferSize size)) done.session.pending

/-- A step leaves less than a whole buffer pending, unless one of its writes to the device has
stalled or met a fault, or it does not return. -/
def Step.LeavesLess (x : Step World) : Prop :=
  (∀ reason, x.outcome ≠ .halt reason) →
    x.after.settings.writeBufferSize ≤ x.after.pending.length →
      writeStalled x.exchanges = true ∨ faults x.exchanges ≠ []

theorem write_leavesLess {s : Session World} (hmode : s.settings.writeMode = .flushWhenFull)
    (w : World) (data : Bytes) : (s.step w (.write data)).LeavesLess := by
  intro hreturns hleft
  obtain ⟨made, hmade, -, hstuck⟩ :=
    drain_made (s := s.recorded.buffer data) hmode s.device.recorded_logs (w, [])
  have hperform : s.recorded.write data (w, []) = _ := s.perform_recorded w (.write data)
  have hsettings := (s.perform_frame w (.write data)).settings_eq not_false
  rcases hdrain : (s.recorded.buffer data).drain (w, []) with ⟨_ | e | reason, t, v⟩ <;>
    rw [hdrain] at hmade hstuck
  · rw [write_of_drain_ok (s := s.recorded) hmode hdrain] at hperform
    obtain ⟨-, rfl, rfl⟩ := Result.mk.inj hperform
    obtain rfl : s.exchanges w (.write data) = made := hmade
    change (s.perform w (.write data)).session.settings.writeBufferSize ≤ _ at hleft
    rw [hsettings] at hleft
    exact hstuck (.inr ⟨rfl, hleft⟩)
  · rw [write_of_drain_error (s := s.recorded) hmode hdrain rfl] at hperform
    obtain ⟨-, -, rfl⟩ := Result.mk.inj hperform
    obtain rfl : s.exchanges w (.write data) = made := hmade
    exact hstuck (.inl ⟨e, rfl⟩)
  · rw [write_of_drain_halt (s := s.recorded) hmode hdrain] at hperform
    obtain ⟨hhalt, -, -⟩ := Result.mk.inj hperform
    exact absurd hhalt.symm (hreturns reason)

theorem setWriteBufferSize_leavesLess {s : Session World}
    (hmode : s.settings.writeMode = .flushWhenFull) (w : World) {size : Nat} (hsize : size ≠ 0) :
    (s.step w (.setWriteBufferSize size)).LeavesLess := by
  intro hreturns hleft
  obtain ⟨made, hmade, -, hstuck⟩ :=
    drain_made (s := s.recorded.resized size) hmode s.device.recorded_logs (w, [])
  have hperform : s.recorded.setWriteBufferSize size (w, []) = _ :=
    s.perform_recorded w (.setWriteBufferSize size)
  have hsettings : (s.perform w (.setWriteBufferSize size)).session.settings = _ :=
    s.settings_setWriteBufferSize hsize w
  change (s.perform w (.setWriteBufferSize size)).session.settings.writeBufferSize ≤ _ at hleft
  rw [hsettings] at hleft
  rw [s.recorded.setWriteBufferSize_eq hsize (w, [])] at hperform
  change (s.recorded.resized size).drain (w, []) = _ at hperform
  rw [hperform] at hmade hstuck
  obtain rfl : s.exchanges w (.setWriteBufferSize size) = made := hmade
  cases houtcome : (s.perform w (.setWriteBufferSize size)).outcome with
  | ok _ => exact hstuck (.inr ⟨houtcome, hleft⟩)
  | error e => exact hstuck (.inl ⟨e, houtcome⟩)
  | halt reason => exact absurd houtcome (hreturns reason)

/-- Over a device that takes what it is offered, bit by bit, the data of several writes goes out in
whole buffers as if it had been written at once. Over any device, a write or a change of the buffer
size leaves a whole buffer pending only if one of its writes to the device stalls or meets a fault.
A size of zero is refused, and changes nothing. -/
theorem writes_batched {s : Session World} (hmode : s.settings.writeMode = .flushWhenFull)
    (w : World) :
    (∀ good : World → Prop, s.device.Absorbs good → good w →
      s.pending.length < s.settings.writeBufferSize → ∀ datas, s.BatchesWrites w datas) ∧
    (∀ data, (s.step w (.write data)).LeavesLess) ∧
    ∀ size, size ≠ 0 ∨ s.pending.length < s.settings.writeBufferSize →
      (s.step w (.setWriteBufferSize size)).LeavesLess := by
  refine ⟨fun good habsorbs hw hless datas ↦ ?_, s.write_leavesLess hmode w, fun size hsize ↦ ?_⟩
  · obtain ⟨hall, hbatched, hsession, hgood⟩ := run_absorbs habsorbs hmode hless hw datas
    have hpos : 0 < s.settings.writeBufferSize := Nat.lt_of_le_of_lt (Nat.zero_le _) hless
    refine ⟨hall, hbatched, ?_, fun size hsize ↦ ?_⟩
    · obtain ⟨⟨w', hwrite, -⟩, -⟩ := write_absorbs habsorbs hmode hw hpos datas.flatten
      rw [hsession, hwrite]
    · intro run done
      have hkept : run.session = _ := hsession
      have hdevice : run.session.device = s.device := by rw [hkept]; rfl
      have hmode' : run.session.settings.writeMode = .flushWhenFull := by rw [hkept]; exact hmode
      obtain ⟨⟨w', hdone⟩, hresized⟩ :=
        setWriteBufferSize_absorbs (s := run.session) (hdevice ▸ habsorbs) hmode' hgood hsize
      exact ⟨congrArg Result.outcome hdone,
        congrArg (fun done ↦ done.session.settings.writeBufferSize) hdone, hresized⟩
  · by_cases hzero : size = 0
    · have hless := hsize.resolve_left (not_not_intro hzero)
      rw [hzero]
      exact fun _ hleft ↦ absurd hless (Nat.not_lt_of_le hleft)
    · exact s.setWriteBufferSize_leavesLess hmode w hzero

/-- Of eight bytes two buffers of three go out, cut up by the device, and two bytes are left. -/
theorem writes_batched_scripted :
    let s : Session Script :=
      { port := .onboard
        device := Script.device
        settings := { writeMode := .flushWhenFull, writeBufferSize := 3 }
        pending := [97] }
    let w : Script :=
      { writes := [.takes 1, .fails ⟨.io .interrupted, "busy"⟩, .takes 9, .takes 2] }
    s.settings.writeMode = .flushWhenFull ∧
      s.BatchesWrites w [[98, 99, 100], [], [101, 102, 103, 104]] ∧
      (s.run w ([[98, 99, 100], [], [101, 102, 103, 104]].map .write)).session.pending =
        [103, 104] ∧
      (s.step w (.write [98, 99, 100])).LeavesLess ∧
      (s.step w (.setWriteBufferSize 1)).LeavesLess := by
  intro s w
  have hmode : s.settings.writeMode = .flushWhenFull := rfl
  obtain ⟨hbatches, hwrite, hresize⟩ := writes_batched hmode w
  refine ⟨hmode, ?_, by decide, hwrite _, hresize 1 (.inl (by decide))⟩
  have habsorbing : w.Absorbing := by
    simp [Script.Absorbing, WriteItem.Obliges, Host.Error.toIo, w]
  exact hbatches _ Script.device_absorbs habsorbing (by decide) _

end Session

end SerialLine
