import SerialLine.Proofs.Exchange
/-!
# The writes of a push

A push offers what is left of its bytes again and again, until the device has taken all of it,
stalls or fails. `Pushes` lists the writes that this can come to, with one constructor for each way
in which the loop goes on or ends. `Device.pushLoop_pushes` shows that the writes of every push are
among these, over every device.

What a push means for its caller is read off the list by induction on `Pushes`. The device has taken
the front of the bytes, as far as the push has counted (`Pushes.taken_eq`). The push ends in the
only stall or fault that it meets, so the ending tells whether there was one (`Pushes.writeStalled_iff`,
`Pushes.faults_eq`). It offers nothing but ends of its bytes (`Pushes.offers`).
-/

set_option autoImplicit false

namespace SerialLine

/-! ### Stalls and faults -/

/-- An error that is more than slowness or an interruption. -/
def IoError.IsFault (e : IoError) : Prop :=
  e.kind ≠ .timedOut ∧ e.kind ≠ .wouldBlock ∧ e.kind ≠ .interrupted

instance (e : IoError) : Decidable e.IsFault := inferInstanceAs (Decidable (_ ∧ _ ∧ _))

theorem IoError.not_isFault_iff {e : IoError} :
    ¬e.IsFault ↔ e.kind = .timedOut ∨ e.kind = .wouldBlock ∨ e.kind = .interrupted := by
  simp only [IsFault, ne_eq, Decidable.not_and_iff_not_or_not, Decidable.not_not]

/-- The fault that a write to the device has met. -/
def Exchange.fault? : Exchange → Option IoError
  | ⟨.write _, .error e⟩ => if e.IsFault then some e else none
  | _ => none

/-- The faults that writes to the device have met, in order. -/
def faults (log : List Exchange) : List IoError := log.filterMap Exchange.fault?

theorem mem_faults_iff {log : List Exchange} {e : IoError} :
    e ∈ faults log ↔ e.IsFault ∧ ∃ offered, ⟨.write offered, .error e⟩ ∈ log := by
  rw [faults, List.mem_filterMap]
  constructor
  · rintro ⟨⟨call, answer⟩, hx, hfault⟩
    cases call with
    | write offered =>
      cases answer with
      | ok n => cases hfault
      | error cause =>
        simp only [Exchange.fault?, Option.ite_none_right_eq_some, Option.some.injEq] at hfault
        obtain ⟨hcause, rfl⟩ := hfault
        exact ⟨hcause, offered, hx⟩
    | _ => cases hfault
  · rintro ⟨he, offered, hx⟩
    exact ⟨_, hx, if_pos he⟩

/-- The fault in which a push has ended. -/
def Ending.faults : Ending → List IoError
  | .failed e => [e]
  | _ => []

/-- Whether a write has found the device slow: it took no byte, or none in time. -/
def Exchange.isStall : Exchange → Bool
  | ⟨.write _, .ok n⟩ => n == (0 : Nat)
  | ⟨.write _, .error e⟩ => e.kind = .timedOut ∨ e.kind = .wouldBlock
  | _ => false

/-- Whether a write has found the device slow. -/
def writeStalled (log : List Exchange) : Bool := log.any Exchange.isStall

@[simp] theorem faults_append (first second : List Exchange) :
    faults (first ++ second) = faults first ++ faults second := List.filterMap_append

/-- An error of a write counts as a fault if it is one. -/
theorem faults_cons_error (offered : Bytes) (e : IoError) (log : List Exchange) :
    faults (⟨.write offered, .error e⟩ :: log) =
      if e.IsFault then e :: faults log else faults log := by
  by_cases hfault : e.IsFault
  · rw [if_pos hfault]
    exact List.filterMap_cons_some (if_pos hfault)
  · rw [if_neg hfault]
    exact List.filterMap_cons_none (if_neg hfault)

@[simp] theorem writeStalled_append (first second : List Exchange) :
    writeStalled (first ++ second) = (writeStalled first || writeStalled second) := List.any_append

/-! ### The writes that a push can make -/

/-- Pushing some bytes, a list of exchanges has led to what is counted and to how it has ended. -/
inductive Pushes : Bytes → List Exchange → Push → Prop
  | done : Pushes [] [] ⟨0, .complete⟩
  | unfinished {bytes : Bytes} : Pushes bytes [] ⟨0, .unfinished⟩
  | refused {b : UInt8} {bs : Bytes} : Pushes (b :: bs) [⟨.write (b :: bs), .ok 0⟩] ⟨0, .stalled⟩
  | took {b : UInt8} {bs : Bytes} {n : Nat} {log : List Exchange} {rest : Push}
      (h : Pushes (bs.drop n) log rest) :
      Pushes (b :: bs) (⟨.write (b :: bs), .ok (n + 1)⟩ :: log) ⟨n + 1 + rest.taken, rest.ending⟩
  | interrupted {b : UInt8} {bs : Bytes} {e : IoError} {log : List Exchange} {push : Push}
      (hkind : e.kind = .interrupted) (h : Pushes (b :: bs) log push) :
      Pushes (b :: bs) (⟨.write (b :: bs), .error e⟩ :: log) push
  | slow {b : UInt8} {bs : Bytes} {e : IoError} (hkind : e.kind = .timedOut ∨ e.kind = .wouldBlock) :
      Pushes (b :: bs) [⟨.write (b :: bs), .error e⟩] ⟨0, .stalled⟩
  | failed {b : UInt8} {bs : Bytes} {e : IoError} (hfault : e.IsFault) :
      Pushes (b :: bs) [⟨.write (b :: bs), .error e⟩] ⟨0, .failed e⟩

namespace Device

variable {World : Type} {device : Device World} {log : World → List Exchange}

/-- By induction on the calls that the push may yet make: each case of the loop is a constructor. -/
theorem pushLoop_pushes (hlog : device.Logs log) (calls : Nat) (bytes : Bytes) (w : World) :
    ∃ made, log (device.pushLoop calls bytes w).2 = log w ++ made ∧
      Pushes bytes made (device.pushLoop calls bytes w).1 := by
  have hwrite {offered : Bytes} {answer : Except IoError Nat} {w w' : World}
      (hanswer : device.perform (.write offered) w = (answer, w')) :
      log w' = log w ++ [⟨.write offered, answer⟩] := by
    have hcall := hlog (.write offered) w
    rwa [exchange, hanswer] at hcall
  fun_induction device.pushLoop calls bytes w with
  | case1 => exact ⟨[], (List.append_nil _).symm, .done⟩
  | case2 => exact ⟨[], (List.append_nil _).symm, .unfinished⟩
  | case3 calls b bs w w' hanswer => exact ⟨_, hwrite hanswer, .refused⟩
  | case4 calls b bs w n w' hanswer rest ih =>
    obtain ⟨made, hmade, hpushes⟩ := ih
    refine ⟨_ :: made, ?_, .took hpushes⟩
    show log rest.2 = _
    rw [hmade, hwrite hanswer, List.append_assoc, List.singleton_append]
  | case5 calls b bs w e w' hanswer hkind ih =>
    obtain ⟨made, hmade, hpushes⟩ := ih
    refine ⟨_ :: made, ?_, .interrupted hkind hpushes⟩
    rw [hmade, hwrite hanswer, List.append_assoc, List.singleton_append]
  | case6 calls b bs w e w' hanswer hkind => exact ⟨_, hwrite hanswer, .slow (.inl hkind)⟩
  | case7 calls b bs w e w' hanswer hkind => exact ⟨_, hwrite hanswer, .slow (.inr hkind)⟩
  | case8 calls b bs w e w' hanswer hinterrupted htimedOut hwouldBlock =>
    exact ⟨_, hwrite hanswer, .failed ⟨htimedOut, hwouldBlock, hinterrupted⟩⟩

theorem push_pushes (hlog : device.Logs log) (bytes : Bytes) (w : World) :
    ∃ made, log (device.push bytes w).2 = log w ++ made ∧
      Pushes bytes made (device.push bytes w).1 :=
  pushLoop_pushes hlog _ bytes w

end Device

namespace Pushes

variable {bytes : Bytes} {made : List Exchange} {push : Push}

/-- The device has taken the bytes from the front, even if it claims to have taken more than it was
offered. -/
theorem taken_eq (h : Pushes bytes made push) : taken made = bytes.take push.taken := by
  induction h with
  | @took b bs n log rest _ ih =>
    show (b :: bs).take (n + 1) ++ taken log = (b :: bs).take (n + 1 + rest.taken)
    rw [ih, List.take_add (i := n + 1)]
    rfl
  | interrupted _ _ ih => exact ih
  | _ => rfl

/-- A push that has counted no byte is one of which the device has taken none. -/
theorem taken_eq_nil_iff (h : Pushes bytes made push) : taken made = [] ↔ push.taken = 0 := by
  induction h with
  | took => exact iff_of_false (List.cons_ne_nil _ _) (by simp)
  | interrupted _ _ ih => exact ih
  | _ => exact iff_of_true rfl rfl

/-- A complete push has counted all bytes. -/
theorem length_le (h : Pushes bytes made push) (hcomplete : push.ending = .complete) :
    bytes.length ≤ push.taken := by
  induction h with
  | done => exact Nat.le_refl _
  | @took b bs n log rest _ ih =>
    have hrest := ih hcomplete
    rw [List.length_drop] at hrest
    show bs.length + 1 ≤ n + 1 + rest.taken
    omega
  | interrupted _ _ ih => exact ih hcomplete
  | _ => cases hcomplete

/-- A push meets the fault in which it ends and no other. -/
theorem faults_eq (h : Pushes bytes made push) : faults made = push.ending.faults := by
  induction h with
  | took _ ih => exact ih
  | interrupted hkind _ ih =>
    rw [faults_cons_error, if_neg fun hfault ↦ hfault.2.2 hkind]
    exact ih
  | slow hkind =>
    rw [faults_cons_error, if_neg fun hfault ↦ hkind.elim hfault.1 hfault.2.1]
    rfl
  | failed hfault =>
    rw [faults_cons_error, if_pos hfault]
    rfl
  | _ => rfl

/-- A push has found the device slow exactly if it has ended in that. -/
theorem writeStalled_iff (h : Pushes bytes made push) :
    writeStalled made = true ↔ push.ending = .stalled := by
  induction h with
  | took _ ih => exact ih
  | @interrupted b bs e log push hkind _ ih =>
    have hpatient : Exchange.isStall ⟨.write (b :: bs), .error e⟩ = false := by
      simp [Exchange.isStall, hkind]
    rw [writeStalled, List.any_cons, hpatient, Bool.false_or]
    exact ih
  | slow hkind => exact iff_of_true (by simpa [writeStalled, Exchange.isStall] using hkind) rfl
  | failed hfault =>
    exact iff_of_false (by simp [writeStalled, Exchange.isStall, hfault.1, hfault.2.1]) (by simp)
  | refused => exact iff_of_true rfl rfl
  | _ => exact iff_of_false (by simp [writeStalled]) (by simp)

/-- Every call of a push is a write that offers the end of the bytes, from some place on. -/
theorem offers (h : Pushes bytes made push) :
    ∀ x ∈ made, ∃ offered, x.call = .write offered ∧ offered ≠ [] ∧ offered <:+ bytes := by
  induction h with
  | done | unfinished => exact fun x hx ↦ absurd hx List.not_mem_nil
  | @took b bs n log rest _ ih =>
    intro x hx
    rcases List.mem_cons.mp hx with rfl | hlater
    · exact ⟨_, rfl, List.cons_ne_nil b bs, List.suffix_rfl⟩
    · obtain ⟨offered, hcall, hne, hsuffix⟩ := ih x hlater
      have htail := (List.drop_suffix n bs).trans (List.suffix_cons b bs)
      exact ⟨offered, hcall, hne, hsuffix.trans htail⟩
  | @interrupted b bs e log push _ _ ih =>
    intro x hx
    rcases List.mem_cons.mp hx with rfl | hlater
    · exact ⟨_, rfl, List.cons_ne_nil b bs, List.suffix_rfl⟩
    · exact ih x hlater
  | @refused b bs | @slow b bs _ _ | @failed b bs _ _ =>
    intro x hx
    rw [List.mem_singleton.mp hx]
    exact ⟨_, rfl, List.cons_ne_nil b bs, List.suffix_rfl⟩

end Pushes

end SerialLine
