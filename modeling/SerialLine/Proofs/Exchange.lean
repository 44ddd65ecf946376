import SerialLine.Device
/-!
# What passes between a caller and a device

A device is a function on a world that nobody can look into, so the bytes it has taken and the
bytes it has delivered can only be read off what it has answered. An `Exchange` is a call with its
answer; `taken` and `delivered` are the bytes that a list of exchanges has moved, in order.

`Device.recorded` is a device that answers as another one does and writes every exchange down.
`Device.Follows` says of two worlds that a list of exchanges leads from the one to the other, and
`Device.Agrees` that two devices answer alike as long as their worlds are related.
`recorded_agrees` ties the three together: a device agrees with its recorded form, and the record
leads from the world in which it was begun to the present one.
-/

set_option autoImplicit false

namespace SerialLine

/-! ### Exchanges -/

/-- A call together with the answer of the device. -/
structure Exchange where
  call : Call
  answer : Except IoError call.Answer

namespace Exchange

/-- The bytes that an exchange has handed to the device. -/
def output : Exchange → Bytes
  | ⟨.write offered, .ok n⟩ => offered.take n
  | _ => []

/-- The bytes that an exchange has got from the device. -/
def input : Exchange → Bytes
  | ⟨.read _, .ok bytes⟩ => bytes
  | _ => []

/-- Whether the device was asked to send everything it holds and has failed to. -/
def isFailedFlush : Exchange → Bool
  | ⟨.flush, .error _⟩ => true
  | _ => false

/-- A call that fails moves no bytes. -/
theorem output_error (call : Call) (e : IoError) : output ⟨call, .error e⟩ = [] := by
  cases call <;> rfl

theorem input_error (call : Call) (e : IoError) : input ⟨call, .error e⟩ = [] := by
  cases call <;> rfl

end Exchange

/-- The bytes that the device has taken, in order. -/
def taken (log : List Exchange) : Bytes := log.flatMap Exchange.output

/-- The bytes that the device has delivered, in order. -/
def delivered (log : List Exchange) : Bytes := log.flatMap Exchange.input

@[simp] theorem taken_append (first second : List Exchange) :
    taken (first ++ second) = taken first ++ taken second := List.flatMap_append

@[simp] theorem delivered_append (first second : List Exchange) :
    delivered (first ++ second) = delivered first ++ delivered second := List.flatMap_append

@[simp] theorem taken_singleton (x : Exchange) : taken [x] = x.output := List.flatMap_singleton _ x

@[simp] theorem delivered_singleton (x : Exchange) : delivered [x] = x.input :=
  List.flatMap_singleton _ x

/-- Exchanges that are no writes have handed nothing to the device. -/
theorem taken_eq_nil {log : List Exchange} (h : ∀ x ∈ log, ∀ offered, x.call ≠ .write offered) :
    taken log = [] := by
  refine List.flatMap_eq_nil_iff.mpr fun x hx ↦ ?_
  obtain ⟨call, answer⟩ := x
  cases call with
  | write offered => exact absurd rfl (h _ hx offered)
  | _ => rfl

/-- Exchanges that are no reads have got nothing from the device. -/
theorem delivered_eq_nil {log : List Exchange} (h : ∀ x ∈ log, ∀ room, x.call ≠ .read room) :
    delivered log = [] := by
  refine List.flatMap_eq_nil_iff.mpr fun x hx ↦ ?_
  obtain ⟨call, answer⟩ := x
  cases call with
  | read room => exact absurd rfl (h _ hx room)
  | _ => rfl

namespace Device

variable {World Other : Type}

/-- A device takes at most the bytes that it is offered. -/
def TakesWhatIsOffered (device : Device World) : Prop :=
  ∀ offered w n, (device.perform (.write offered) w).1 = .ok n → n ≤ offered.length

/-- A device delivers at most the bytes that it is asked for. -/
def DeliversWhatFits (device : Device World) : Prop :=
  ∀ room w bytes, (device.perform (.read room) w).1 = .ok bytes → bytes.length ≤ room

/-- The exchange that a call brings about in a world. -/
def exchange (device : Device World) (call : Call) (w : World) : Exchange :=
  ⟨call, (device.perform call w).1⟩

/-! ### Records -/

/-- A log is a part of the world in which a device writes every exchange down. -/
def Logs (device : Device World) (log : World → List Exchange) : Prop :=
  ∀ call w, log (device.perform call w).2 = log w ++ [device.exchange call w]

theorem Logs.taken_perform {device : Device World} {log : World → List Exchange}
    (h : device.Logs log) (call : Call) (w : World) :
    taken (log (device.perform call w).2) = taken (log w) ++ (device.exchange call w).output := by
  rw [h call w, taken_append, taken_singleton]

theorem Logs.delivered_perform {device : Device World} {log : World → List Exchange}
    (h : device.Logs log) (call : Call) (w : World) :
    delivered (log (device.perform call w).2) =
      delivered (log w) ++ (device.exchange call w).input := by
  rw [h call w, delivered_append, delivered_singleton]

/-- The same device with a record of all exchanges beside its world. -/
def recorded (device : Device World) : Device (World × List Exchange) where
  perform call w := ((device.perform call w.1).1, (device.perform call w.1).2,
    w.2 ++ [device.exchange call w.1])
  now w := device.now w.1
  patience w := device.patience w.1

theorem recorded_logs (device : Device World) : device.recorded.Logs Prod.snd :=
  fun _ _ ↦ rfl

theorem recorded_takesWhatIsOffered {device : Device World} (h : device.TakesWhatIsOffered) :
    device.recorded.TakesWhatIsOffered :=
  fun offered w n hn ↦ h offered w.1 n hn

/-- A list of exchanges leads from one world to another. -/
inductive Follows (device : Device World) : World → List Exchange → World → Prop
  | nil (w : World) : Follows device w [] w
  | snoc {w w' : World} {log : List Exchange} (h : Follows device w log w') (call : Call) :
    Follows device w (log ++ [device.exchange call w']) (device.perform call w').2

theorem Follows.trans {device : Device World} {w w' w'' : World} {first second : List Exchange}
    (hfirst : Follows device w first w') (hsecond : Follows device w' second w'') :
    Follows device w (first ++ second) w'' := by
  induction hsecond with
  | nil => rwa [List.append_nil]
  | snoc _ call ih =>
    rw [← List.append_assoc]
    exact .snoc ih call

/-- Bringing a device to some settings asks it for nothing but changes of settings. -/
theorem follows_applyChanges (device : Device World) (changes : List Setting) (w : World) :
    ∃ log, device.Follows w log (device.applyChanges changes w).2 ∧
      ∀ x ∈ log, ∃ change, x.call = .set change := by
  induction changes generalizing w with
  | nil => exact ⟨[], .nil w, fun _ hx ↦ absurd hx List.not_mem_nil⟩
  | cons change changes ih =>
    have hfirst : device.Follows w [device.exchange (.set change) w]
        (device.perform (.set change) w).2 := .snoc (.nil w) (.set change)
    have hcall : ∀ x ∈ [device.exchange (.set change) w], ∃ change, x.call = .set change :=
      fun x hx ↦ ⟨change, congrArg Exchange.call (List.mem_singleton.mp hx)⟩
    unfold applyChanges
    rcases hanswer : device.perform (.set change) w with ⟨_ | _, w'⟩
    · rw [hanswer] at hfirst
      exact ⟨_, hfirst, hcall⟩
    · rw [hanswer] at hfirst
      obtain ⟨log, hfollows, hcalls⟩ := ih w'
      refine ⟨_, hfirst.trans hfollows, fun x hx ↦ ?_⟩
      exact (List.mem_append.mp hx).elim (hcall x) (hcalls x)

/-! ### Devices that answer alike -/

/-- Two devices give the same answers to all calls of some kind in related worlds, and keep their
worlds related. They also tell the same time and have the same patience. -/
structure Agrees (device : Device World) (other : Device Other) (kind : Call → Prop)
    (related : World → Other → Prop) : Prop where
  now_eq : ∀ {w v}, related w v → other.now v = device.now w
  patience_eq : ∀ {w v}, related w v → other.patience v = device.patience w
  perform_eq : ∀ {call w v}, kind call → related w v → ∃ answer w' v',
    device.perform call w = (answer, w') ∧ other.perform call v = (answer, v') ∧ related w' v'

/-- Two devices that give the same answers in related worlds, while the clock of the second one is
ahead of the other clock by a delay. -/
structure AgreesAfter (device : Device World) (other : Device Other) (delay : Nat)
    (kind : Call → Prop) (related : World → Other → Prop) : Prop where
  now_eq : ∀ {w v}, related w v → other.now v = device.now w + delay
  patience_eq : ∀ {w v}, related w v → other.patience v = device.patience w
  perform_eq : ∀ {call w v}, kind call → related w v → ∃ answer w' v',
    device.perform call w = (answer, w') ∧ other.perform call v = (answer, v') ∧ related w' v'

theorem Agrees.agreesAfter {device : Device World} {other : Device Other} {kind : Call → Prop}
    {related : World → Other → Prop} (h : device.Agrees other kind related) :
    device.AgreesAfter other 0 kind related :=
  ⟨h.now_eq, h.patience_eq, h.perform_eq⟩

/-- Devices that agree on all calls agree on those of a kind. -/
theorem AgreesAfter.of_all {device : Device World} {other : Device Other} {delay : Nat}
    {related : World → Other → Prop}
    (h : device.AgreesAfter other delay (fun _ ↦ True) related) (kind : Call → Prop) :
    device.AgreesAfter other delay kind related :=
  ⟨h.now_eq, h.patience_eq, fun _ hr ↦ h.perform_eq trivial hr⟩

theorem AgreesAfter.applyChanges {device : Device World} {other : Device Other} {delay : Nat}
    {kind : Call → Prop} {related : World → Other → Prop}
    (h : device.AgreesAfter other delay kind related) (hset : ∀ change, kind (.set change))
    (changes : List Setting) {w : World} {v : Other} (hr : related w v) : ∃ answer w' v',
      device.applyChanges changes w = (answer, w') ∧ other.applyChanges changes v = (answer, v') ∧
        related w' v' := by
  induction changes generalizing w v with
  | nil => exact ⟨_, w, v, rfl, rfl, hr⟩
  | cons change changes ih =>
    obtain ⟨answer, w', v', hw, hv, hr'⟩ := h.perform_eq (hset change) hr
    simp only [Device.applyChanges, hw, hv]
    cases answer with
    | ok _ => exact ih hr'
    | error e => exact ⟨_, w', v', rfl, rfl, hr'⟩

/-- A device agrees with its recorded form. The record lists calls of the right kind only, and
leads from the world in which it was begun to the present one. -/
theorem recorded_agrees (device : Device World) (kind : Call → Prop) (start : World) :
    device.Agrees device.recorded kind fun w v ↦
      v.1 = w ∧ device.Follows start v.2 w ∧ ∀ x ∈ v.2, kind x.call where
  now_eq h := by rw [← h.1]; rfl
  patience_eq h := by rw [← h.1]; rfl
  perform_eq := by
    rintro call w ⟨_, log⟩ hkind ⟨rfl, hfollows, hcalls⟩
    refine ⟨_, _, _, rfl, rfl, rfl, hfollows.snoc call, fun x hx ↦ ?_⟩
    rcases List.mem_append.mp hx with hold | hnew
    · exact hcalls x hold
    · rw [List.mem_singleton.mp hnew]
      exact hkind

end Device

end SerialLine
