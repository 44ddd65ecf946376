import SerialLine.Loopback
import SerialLine.Proofs.Registry.Slots
/-!
# What a loopback end carries

`Bench.Carries` describes what a list of exchanges with one end of a bench does to the two ends of a
line that is no loop: the bytes that were delivered have left the front of the end's own input, and
the bytes that were taken have come to the end of the input at the far end. `carries_perform` is one
call of the device and `carries_of_follows` any list of them, `carries_operation` an operation of a
session, and `shifts_openPort` the opening of a port. An end that is made to fail takes nothing, one
that works never fails to send what it holds, and neither ever interrupts a write.
-/

set_option autoImplicit false

namespace SerialLine

namespace Bench

/-! ### Changing one end -/

@[simp] theorem put_ends_self (b : Bench) (i : EndId) (e : End) : (b.put i e).ends i = e :=
  if_pos rfl

theorem put_ends_of_ne (b : Bench) {i j : EndId} (e : End) (h : j ≠ i) :
    (b.put i e).ends j = b.ends j := if_neg h

@[simp] theorem modify_ends_self (b : Bench) (i : EndId) (change : End → End) :
    (b.modify i change).ends i = change (b.ends i) := b.put_ends_self i _

theorem modify_ends_of_ne (b : Bench) {i j : EndId} (change : End → End) (h : j ≠ i) :
    (b.modify i change).ends j = b.ends j := b.put_ends_of_ne _ h

theorem put_put (b : Bench) (i : EndId) (e e' : End) : (b.put i e).put i e' = b.put i e' := by
  have hends : ∀ j, ((b.put i e).put i e').ends j = (b.put i e').ends j := by
    intro j
    by_cases h : j = i
    · rw [h, put_ends_self, put_ends_self]
    · rw [put_ends_of_ne _ _ h, put_ends_of_ne _ _ h, put_ends_of_ne _ _ h]
  exact congrArg (fun ends ↦ { b with ends }) (funext hends)

theorem modify_put_self (b : Bench) (i : EndId) (e : End) (change : End → End) :
    (b.put i e).modify i change = b.put i (change e) := by
  rw [modify, put_ends_self, put_put]

/-- Putting back what is there changes nothing. -/
theorem put_ends (b : Bench) (i : EndId) : b.put i (b.ends i) = b := by
  have hends : ∀ j, (b.put i (b.ends i)).ends j = b.ends j := by
    intro j
    by_cases h : j = i
    · rw [h, put_ends_self]
    · rw [put_ends_of_ne _ _ h]
  exact congrArg (fun ends ↦ { b with ends }) (funext hends)

/-! ### Exchanges with one end -/

/-- Bytes have left the front of the input of one end, and others have come to the input of the end
at the far side. Nothing else is to arrive at either than before. -/
structure Shifts (i : EndId) (b : Bench) (input output : Bytes) (b' : Bench) : Prop where
  near_eq : input ++ (b'.ends i).input = (b.ends i).input
  far_eq : (b'.ends i.far).input = (b.ends i.far).input ++ output
  arriving_eq : (b'.ends i).arriving = (b.ends i).arriving
  far_arriving_eq : (b'.ends i.far).arriving = (b.ends i.far).arriving
  socket_eq : b'.socket = b.socket

/-- A change of one end that leaves its input alone moves no bytes. -/
theorem shifts_modify (b : Bench) {i : EndId} (hloop : i.far ≠ i) {change : End → End}
    (hinput : ∀ e, (change e).input = e.input) (harriving : ∀ e, (change e).arriving = e.arriving) :
    Shifts i b [] [] (b.modify i change) where
  near_eq := by rw [modify_ends_self, hinput, List.nil_append]
  far_eq := by rw [modify_ends_of_ne _ _ hloop, List.append_nil]
  arriving_eq := by rw [modify_ends_self, harriving]
  far_arriving_eq := by rw [modify_ends_of_ne _ _ hloop]
  socket_eq := rfl

/-- What a list of exchanges with an end does to the two ends of its line. -/
structure Carries (i : EndId) (b : Bench) (log : List Exchange) (b' : Bench) : Prop
    extends Shifts i b (delivered log) (taken log) b' where
  faulted_eq : (b'.ends i).faulted = (b.ends i).faulted
  /-- An end that is made to fail takes nothing. -/
  taken_eq_nil : (b.ends i).faulted = true → taken log = []
  /-- An end that works never fails to send what it holds. -/
  flushFailed_eq : (b.ends i).faulted = false → flushFailed log = false

theorem Carries.refl (i : EndId) (b : Bench) : Carries i b [] b where
  near_eq := rfl
  far_eq := (List.append_nil _).symm
  arriving_eq := rfl
  far_arriving_eq := rfl
  socket_eq := rfl
  faulted_eq := rfl
  taken_eq_nil _ := rfl
  flushFailed_eq _ := rfl

theorem Carries.trans {i : EndId} {b b' b'' : Bench} {first second : List Exchange}
    (hfirst : Carries i b first b') (hsecond : Carries i b' second b'') :
    Carries i b (first ++ second) b'' where
  near_eq := by
    rw [delivered_append, List.append_assoc, hsecond.near_eq, hfirst.near_eq]
  far_eq := by
    rw [taken_append, hsecond.far_eq, hfirst.far_eq, List.append_assoc]
  arriving_eq := hsecond.arriving_eq.trans hfirst.arriving_eq
  far_arriving_eq := hsecond.far_arriving_eq.trans hfirst.far_arriving_eq
  socket_eq := hsecond.socket_eq.trans hfirst.socket_eq
  faulted_eq := hsecond.faulted_eq.trans hfirst.faulted_eq
  taken_eq_nil h := by
    rw [taken_append, hfirst.taken_eq_nil h, hsecond.taken_eq_nil (hfirst.faulted_eq.trans h)]
    rfl
  flushFailed_eq h := by
    have hlater := hsecond.flushFailed_eq (hfirst.faulted_eq.trans h)
    rw [flushFailed_append]
    exact Bool.or_eq_false_iff.mpr ⟨hfirst.flushFailed_eq h, hlater⟩

/-- A change of one end that takes bytes from the front of its input and leaves its fault alone. -/
theorem carries_put (b : Bench) {i : EndId} (hloop : i.far ≠ i) {e : End} {x : Exchange}
    (hinput : x.input ++ e.input = (b.ends i).input)
    (harriving : e.arriving = (b.ends i).arriving) (hfaulted : e.faulted = (b.ends i).faulted)
    (houtput : x.output = []) (hflush : x.isFailedFlush = false) :
    Carries i b [x] (b.put i e) where
  near_eq := by rw [delivered_singleton, put_ends_self, hinput]
  far_eq := by rw [taken_singleton, houtput, put_ends_of_ne _ _ hloop, List.append_nil]
  arriving_eq := by rw [put_ends_self, harriving]
  far_arriving_eq := by rw [put_ends_of_ne _ _ hloop]
  socket_eq := rfl
  faulted_eq := by rw [put_ends_self, hfaulted]
  taken_eq_nil _ := (taken_singleton x).trans houtput
  flushFailed_eq _ := by rw [flushFailed, List.any_cons, hflush]; rfl

/-- An answer that moves no bytes and changes nothing. Only an end that is made to fail may fail to
send what it holds. -/
theorem carries_nothing (b : Bench) (i : EndId) {x : Exchange} (houtput : x.output = [])
    (hinput : x.input = []) (hflush : (b.ends i).faulted = false → x.isFailedFlush = false) :
    Carries i b [x] b where
  near_eq := by rw [delivered_singleton, hinput, List.nil_append]
  far_eq := by rw [taken_singleton, houtput, List.append_nil]
  arriving_eq := rfl
  far_arriving_eq := rfl
  socket_eq := rfl
  faulted_eq := rfl
  taken_eq_nil _ := (taken_singleton x).trans houtput
  flushFailed_eq h := by rw [flushFailed, List.any_cons, hflush h]; rfl

/-- Reading takes bytes from the front of the input. Nothing else is to arrive. -/
theorem carries_readFrom (b : Bench) {i : EndId} (hloop : i.far ≠ i)
    (harriving : (b.ends i).arriving = []) (room nanos : Nat) :
    Carries i b [⟨.read room, (b.readFrom i room).1⟩] ((b.readFrom i room).2.tick i nanos) := by
  unfold readFrom tick
  simp only
  by_cases hroom : room = 0
  · simp only [if_pos hroom]
    exact b.carries_put hloop rfl rfl rfl rfl rfl
  · simp only [if_neg hroom, harriving, List.dropWhile_nil]
    cases hinput : (b.ends i).input with
    | nil =>
      simp only [modify_put_self]
      exact b.carries_put hloop hinput.symm harriving.symm rfl rfl rfl
    | cons byte bytes =>
      simp only [modify_put_self]
      refine b.carries_put hloop ?_ harriving.symm rfl rfl rfl
      rw [hinput]
      exact List.take_append_drop room (byte :: bytes)

/-- A write that is refused for lack of budget changes nothing. Any other adds the bytes that it
takes to the input of the far end. -/
theorem writeTo_cases (b : Bench) (i : EndId) (offered : Bytes) :
    b.writeTo i offered = (.error ⟨.timedOut, "loopback write timed out"⟩, b) ∨
      ∃ n budget, n ≤ offered.length ∧ b.writeTo i offered =
        (.ok n, (b.put i { b.ends i with budget }).modify i.far fun far ↦
          { far with input := far.input ++ offered.take n }) := by
  unfold writeTo
  cases hbudget : (b.ends i).budget with
  | none =>
    simp only [hbudget]
    by_cases hrefused : offered ≠ [] ∧ offered.length = 0
    · exact .inl (if_pos hrefused)
    · exact .inr ⟨offered.length, _, Nat.le_refl _, if_neg hrefused⟩
  | some budget =>
    simp only [hbudget]
    by_cases hrefused : offered ≠ [] ∧ min offered.length budget = 0
    · exact .inl (if_pos hrefused)
    · exact .inr ⟨min offered.length budget, _, Nat.min_le_left _ _, if_neg hrefused⟩

/-- Writing adds what is taken to the input of the far end. -/
theorem carries_writeTo (b : Bench) {i : EndId} (hloop : i.far ≠ i)
    (hworks : (b.ends i).faulted = false) (offered : Bytes) (nanos : Nat) :
    Carries i b [⟨.write offered, (b.writeTo i offered).1⟩]
      ((b.writeTo i offered).2.tick i nanos) := by
  unfold tick
  rcases b.writeTo_cases i offered with hrefused | ⟨n, budget, -, htaken⟩
  · rw [hrefused]
    exact b.carries_put hloop rfl rfl rfl rfl rfl
  · rw [htaken]
    have hnear : ∀ (e : End) (change : End → End),
        ((b.put i e).modify i.far change).ends i = e := by
      intro e change
      rw [modify_ends_of_ne _ _ hloop.symm, put_ends_self]
    have hfar : ∀ (e : End) (change : End → End),
        ((b.put i e).modify i.far change).ends i.far = change (b.ends i.far) := by
      intro e change
      rw [modify_ends_self, put_ends_of_ne _ _ hloop]
    refine ⟨⟨?_, ?_, ?_, ?_, rfl⟩, ?_, fun hfaulted ↦ ?_, fun _ ↦ rfl⟩
    · rw [modify_ends_self, hnear]
      rfl
    · rw [modify_ends_of_ne _ _ hloop, hfar, taken_singleton]
      rfl
    · rw [modify_ends_self, hnear]
    · rw [modify_ends_of_ne _ _ hloop, hfar]
    · rw [modify_ends_self, hnear]
    · rw [hworks] at hfaulted
      cases hfaulted

/-- An end that is made to fail refuses the call. -/
theorem carries_unlessFaulted (b : Bench) (i : EndId) {call : Call}
    {answer : Except IoError call.Answer × Bench}
    (hworks : (b.ends i).faulted = false → Carries i b [⟨call, answer.1⟩] answer.2) :
    Carries i b [⟨call, (b.unlessFaulted i answer).1⟩] (b.unlessFaulted i answer).2 := by
  unfold unlessFaulted
  by_cases hfaulted : (b.ends i).faulted = true
  · rw [if_pos hfaulted]
    refine b.carries_nothing i (Exchange.output_error call _) (Exchange.input_error call _) ?_
    intro h
    rw [hfaulted] at h
    exact absurd h Bool.noConfusion
  · rw [if_neg hfaulted]
    exact hworks (Bool.eq_false_iff.mpr hfaulted)

/-- Any call but clearing the input. -/
theorem carries_perform (b : Bench) {i : EndId} (hloop : i.far ≠ i)
    (harriving : (b.ends i).arriving = []) {call : Call} (hcall : call ≠ .clearInput) :
    Carries i b [(device i).exchange call b] ((device i).perform call b).2 := by
  cases call with
  | set change => exact b.carries_put hloop rfl rfl rfl rfl rfl
  | bytesToRead =>
    exact b.carries_unlessFaulted i fun _ ↦ b.carries_nothing i rfl rfl fun _ ↦ rfl
  | clearInput => exact absurd rfl hcall
  | clearOutput => exact b.carries_nothing i rfl rfl fun _ ↦ rfl
  | read room =>
    exact b.carries_unlessFaulted i fun _ ↦ b.carries_readFrom hloop harriving room b.pace
  | write offered =>
    exact b.carries_unlessFaulted i fun hworks ↦ b.carries_writeTo hloop hworks offered b.pace
  | flush => exact b.carries_unlessFaulted i fun _ ↦ b.carries_put hloop rfl rfl rfl rfl rfl

/-- Any exchanges that do not clear the input, by induction on their list. -/
theorem carries_of_follows {b b' : Bench} {i : EndId} (hloop : i.far ≠ i)
    (harriving : (b.ends i).arriving = []) {log : List Exchange}
    (h : (device i).Follows b log b') (hcalls : ∀ x ∈ log, x.call ≠ .clearInput) :
    Carries i b log b' := by
  induction h with
  | nil => exact .refl i b
  | snoc hfollows call ih =>
    have hold := ih fun x hx ↦ hcalls x (List.mem_append_left _ hx)
    have hcall : call ≠ .clearInput :=
      hcalls _ (List.mem_append_right _ (List.mem_singleton.mpr rfl))
    exact hold.trans (carries_perform _ hloop (hold.arriving_eq.trans harriving) hcall)

/-- Any operation of a session but clearing the input. -/
theorem carries_operation (b : Bench) {i : EndId} (hloop : i.far ≠ i)
    (harriving : (b.ends i).arriving = []) {s : Session Bench} (hdevice : s.device = device i)
    {op : Operation} (hop : op ≠ .clear) :
    Carries i b (s.exchanges b op) (s.perform b op).world := by
  have hfollows : s.device.Follows b (s.exchanges b op) (s.perform b op).world :=
    s.follows_exchanges b op
  rw [hdevice] at hfollows
  refine carries_of_follows hloop harriving hfollows fun x hx hcall ↦ ?_
  have hmakes : op.Makes .clearInput := hcall ▸ Session.makes_of_mem_exchanges hx
  cases op <;> simp_all [Operation.Makes]

/-- Bringing the device to some settings moves no bytes. -/
theorem shifts_apply (b : Bench) {i : EndId} (hloop : i.far ≠ i)
    (harriving : (b.ends i).arriving = []) (settings : LineSettings) :
    Shifts i b [] [] ((device i).apply settings b).2 := by
  obtain ⟨log, hfollows, hcalls⟩ := (device i).follows_applyChanges settings.changes b
  have hset : ∀ x ∈ log, ∀ call, (∀ change, call ≠ .set change) → x.call ≠ call := by
    intro x hx call hcall hsame
    obtain ⟨change, hchange⟩ := hcalls x hx
    exact hcall change (hsame.symm.trans hchange)
  have hcarries : Carries i b log ((device i).apply settings b).2 :=
    carries_of_follows hloop harriving hfollows fun x hx ↦ hset x hx _ (by simp)
  have htaken : taken log = [] :=
    taken_eq_nil fun x hx offered ↦ hset x hx _ (by simp)
  have hdelivered : delivered log = [] := delivered_eq_nil fun x hx room ↦ hset x hx _ (by simp)
  have hshifts := hcarries.toShifts
  rw [htaken, hdelivered] at hshifts
  exact hshifts

/-- Opening a port moves no bytes, and the device is the one at the end in its socket. -/
theorem shifts_openPort (b : Bench) {p : Port} (hloop : (b.socket p).far ≠ b.socket p)
    (harriving : (b.ends (b.socket p)).arriving = []) (settings : LineSettings) :
    Shifts (b.socket p) b [] [] (opener.openPort p settings b).2 ∧
      ∀ opened, (opener.openPort p settings b).1 = .ok opened → opened = device (b.socket p) := by
  have happlied := b.shifts_apply hloop harriving settings
  simp only [opener]
  split
  · exact ⟨(Carries.refl (b.socket p) b).toShifts, fun _ h ↦ by cases h⟩
  · rcases hanswer : (device (b.socket p)).apply settings b with ⟨e | _, b'⟩ <;>
      rw [hanswer] at happlied
    · exact ⟨happlied, fun _ h ↦ by cases h⟩
    · exact ⟨happlied, fun _ h ↦ (Except.ok.inj h).symm⟩

/-! ### What writers can rely on -/

theorem device_takesWhatIsOffered (i : EndId) : (device i).TakesWhatIsOffered := by
  intro offered b n hanswer
  change (b.unlessFaulted i ((b.writeTo i offered).map id (·.tick i b.pace))).1 = .ok n at hanswer
  unfold unlessFaulted at hanswer
  split at hanswer
  · cases hanswer
  · rcases b.writeTo_cases i offered with hrefused | ⟨m, budget, hle, htaken⟩
    · rw [hrefused] at hanswer
      cases hanswer
    · rw [htaken] at hanswer
      cases hanswer
      exact hle

/-- An end never interrupts a write, so no writer needs patience. -/
theorem device_patient (i : EndId) : (device i).Patient where
  interrupted_lt := by
    intro offered b e b' hanswer hkind
    change b.unlessFaulted i ((b.writeTo i offered).map id (·.tick i b.pace)) =
      (.error e, b') at hanswer
    unfold unlessFaulted at hanswer
    split at hanswer
    · cases hanswer
      cases hkind
    · rcases b.writeTo_cases i offered with hrefused | ⟨m, budget, -, htaken⟩
      · rw [hrefused] at hanswer
        cases hanswer
        cases hkind
      · rw [htaken] at hanswer
        cases hanswer
  taken_le _ := Nat.le_refl 0

/-- What all ends have in common, the devices of the opener have. -/
theorem opener_supplies {property : Device Bench → Prop} (h : ∀ i, property (device i)) :
    opener.Supplies property := by
  intro p settings b opened b' hopened
  simp only [opener] at hopened
  split at hopened
  · simp at hopened
  · split at hopened
    · obtain ⟨hdevice, -⟩ := Prod.mk.inj hopened
      exact Except.ok.inj hdevice ▸ h (b.socket p)
    · simp at hopened

end Bench

end SerialLine
