import SerialLine.Proofs.Loopback.Wire
import SerialLine.Proofs.Session.Unbounded
import SerialLine.Script
/-!
# Devices that let sessions come to an end

The ends of a bench and the scripted devices keep to their patience, and their readers go on: a read
that brings nothing passes the time that it was given. An end needs no patience. A script has as
much of it as it has answers left for reads and writes, and every such answer is used up, but for
data of which the rest is kept because the reader had no room, and then the reader has got some of
it. Under the layer for host ports a script is no different. In a rack this holds of the devices
that are there: the place of a device that was never added keeps no time.
-/

set_option autoImplicit false

namespace SerialLine

namespace Bench

/-- A read for at least one byte brings some, or the timeout of the end passes. -/
theorem readFrom_progress (b : Bench) (i : EndId) {room : Nat} (hroom : 0 < room) :
    (∃ bytes, (b.readFrom i room).1 = .ok bytes ∧ bytes ≠ []) ∨
      (b.ends i).clock + (b.ends i).settings.timeout.nanos ≤
        ((b.readFrom i room).2.ends i).clock := by
  have htake : ∀ {bytes : Bytes}, bytes ≠ [] → bytes.take room ≠ [] := by
    intro bytes hbytes hnone
    have hlength := congrArg List.length hnone
    have hpos := List.length_pos_iff.mpr hbytes
    rw [List.length_take, List.length_nil] at hlength
    omega
  have hroom' : room ≠ 0 := by omega
  unfold readFrom
  simp only [if_neg hroom']
  cases hinput : (b.ends i).input with
  | cons byte bytes => exact .inl ⟨_, rfl, htake (by simp)⟩
  | nil =>
    cases harriving : (b.ends i).arriving.dropWhile List.isEmpty with
    | nil => exact .inr (by simp [tick, modify_put_self])
    | cons piece pieces =>
      have hpiece : piece ≠ [] := by
        have hhead := List.head_dropWhile_not (p := List.isEmpty) (l := (b.ends i).arriving)
          (by simp [harriving])
        simp only [harriving, List.head_cons] at hhead
        exact fun h ↦ by simp [h] at hhead
      exact .inl ⟨_, rfl, htake hpiece⟩

/-- Every end lets its readers go on, in whatever state the bench is. -/
theorem device_timely (i : EndId) : (device i).Timely fun _ ↦ True where
  sane_perform _ _ := trivial
  progress := by
    intro limit room b b' b'' answer _ hroom hset hread hwaits
    refine .inr ⟨Nat.le_refl 0, ?_⟩
    have hb' : b' = b.modify i fun e ↦ { e with settings := e.settings.record (.timeout limit) } :=
      (congrArg Prod.snd hset).symm
    have hclock : (b'.ends i).clock = (b.ends i).clock := by rw [hb', modify_ends_self]
    have htimeout : (b'.ends i).settings.timeout = limit := by rw [hb', modify_ends_self]; rfl
    change b'.unlessFaulted i ((b'.readFrom i room).map id (·.tick i b'.pace)) =
      (answer, b'') at hread
    unfold unlessFaulted at hread
    split at hread
    · cases hread
      exact absurd (hwaits disconnected rfl) (by simp [disconnected])
    · obtain ⟨hanswer, hb''⟩ := Prod.mk.inj hread
      rcases b'.readFrom_progress i hroom with ⟨bytes, hbytes, hne⟩ | hlate
      · exact .inl ⟨bytes, hanswer.symm.trans hbytes, hne⟩
      · refine .inr ?_
        show (b.ends i).clock + limit.nanos ≤ (b''.ends i).clock
        rw [← hb'', ← hclock, ← htimeout]
        refine Nat.le_trans hlate ?_
        show _ ≤ ((Bench.tick _ i b'.pace).ends i).clock
        rw [tick, modify_ends_self]
        exact Nat.le_add_right _ _

end Bench

namespace Script

@[simp] theorem note_patience (s : Script) (seen : Seen) : (s.note seen).patience = s.patience :=
  rfl

@[simp] theorem note_clock (s : Script) (seen : Seen) : (s.note seen).clock = s.clock := rfl

/-- An answer for a write is used up. -/
theorem patience_write_le (s : Script) (offered : Bytes) :
    (s.write offered).2.patience ≤ s.patience := by
  unfold write patience
  rcases s.writes with _ | ⟨_ | _, items⟩ <;> simp

/-- Only answers of the list are errors. -/
theorem patience_write_lt {s : Script} {offered : Bytes} {e : Host.Error}
    (h : (s.write offered).1 = .error e) : (s.write offered).2.patience < s.patience := by
  unfold write at h ⊢
  unfold patience
  rcases hwrites : s.writes with _ | ⟨_ | _, items⟩ <;> simp_all

/-- An answer for a read is used up, or it is data that the reader has got some of, or there was no
answer, and the timeout has passed. -/
theorem read_progress (s : Script) {room : Nat} (hroom : 0 < room) :
    (s.read room).2.patience < s.patience ∨ (s.read room).2.patience ≤ s.patience ∧
      ((∃ bytes, (s.read room).1 = .ok bytes ∧ bytes ≠ []) ∨
        s.clock + s.timeout.nanos ≤ (s.read room).2.clock) := by
  unfold read patience
  rcases hreads : s.reads with _ | ⟨bytes | e, items⟩
  · exact .inr ⟨by simp, .inr (by simp)⟩
  · by_cases hrest : bytes.drop room = []
    · exact .inl (by simp [hrest])
    · refine .inr ⟨by simp [hrest], .inl ⟨_, rfl, fun hnone ↦ hrest ?_⟩⟩
      have hempty : bytes = [] := (List.take_eq_nil_iff.mp hnone).resolve_left (by omega)
      rw [hempty, List.drop_nil]
  · exact .inl (by simp)

/-- Answering a call that yields nothing uses up an answer for such calls and nothing else. -/
theorem answer_script (s : Script) (method : Method) :
    (s.answer method).2 = { s with calls := s.calls.eraseP (·.1 = method) } := by
  have hnext : (s.next method).2 = { s with calls := s.calls.eraseP (·.1 = method) } := rfl
  unfold answer
  rcases hitem : s.next method with ⟨_ | ⟨_ | _ | _ | _⟩, t⟩ <;> rw [hitem] at hnext <;>
    exact hnext

/-- A timeout that is accepted is the timeout from then on. -/
theorem setTimeout_eq_ok {s s' : Script} {limit : Duration}
    (h : s.setTimeout limit = (.ok (), s')) :
    s'.timeout = limit ∧ s'.clock = s.clock ∧ s'.patience = s.patience := by
  have hscript := s.answer_script .setTimeout
  unfold setTimeout at h
  rcases hanswer : s.answer .setTimeout with ⟨_ | _, t⟩ <;> rw [hanswer] at h hscript
  · cases h
  · cases h
    cases hscript
    exact ⟨rfl, rfl, rfl⟩

/-- What a device makes of the answers of a script to reads, to writes and to changes of the
timeout: it writes the call down before, and may translate an error after. -/
structure Speaks (device : Device Script) : Prop where
  now_eq : ∀ s, device.now s = s.clock
  patience_eq : ∀ s, device.patience s = s.patience
  write_eq : ∀ offered s, ∃ seen, device.perform (.write offered) s =
    HostPort.lift ((s.note seen).write offered)
  read_eq : ∀ room s, ∃ seen, device.perform (.read room) s =
    HostPort.lift ((s.note seen).read room)
  setTimeout_eq : ∀ limit s, ∃ seen, device.perform (.set (.timeout limit)) s =
    HostPort.lift ((s.note seen).setTimeout limit)

theorem device_speaks : Speaks device where
  now_eq _ := rfl
  patience_eq _ := rfl
  write_eq _ _ := ⟨_, rfl⟩
  read_eq _ _ := ⟨_, rfl⟩
  setTimeout_eq _ _ := ⟨_, rfl⟩

/-- The layer for host ports writes down other calls and translates errors in the same way. -/
theorem hostPort_speaks : Speaks hostPort.device where
  now_eq _ := rfl
  patience_eq _ := rfl
  write_eq _ _ := ⟨_, rfl⟩
  read_eq _ _ := ⟨_, rfl⟩
  setTimeout_eq _ _ := ⟨_, rfl⟩

variable {device : Device Script}

theorem Speaks.patient (h : Speaks device) : device.Patient where
  interrupted_lt := by
    intro offered s e s' hanswer _
    obtain ⟨seen, hwrite⟩ := h.write_eq offered s
    rw [hwrite] at hanswer
    obtain ⟨herror, rfl⟩ := Prod.mk.inj hanswer
    rw [h.patience_eq, h.patience_eq]
    rcases hdone : ((s.note seen).write offered).1 with e' | n
    · exact patience_write_lt hdone
    · rw [hdone] at herror
      cases herror
  taken_le := by
    intro offered s n s' hanswer
    obtain ⟨seen, hwrite⟩ := h.write_eq offered s
    rw [hwrite] at hanswer
    obtain ⟨-, rfl⟩ := Prod.mk.inj hanswer
    rw [h.patience_eq, h.patience_eq]
    exact (s.note seen).patience_write_le offered

/-- An accepted limit passes, unless the script has an answer for the read. -/
theorem Speaks.timely (h : Speaks device) : device.Timely fun _ ↦ True where
  sane_perform _ _ := trivial
  progress := by
    intro limit room s s' s'' answer _ hroom hset hread _
    obtain ⟨first, hset'⟩ := h.setTimeout_eq limit s
    obtain ⟨second, hread'⟩ := h.read_eq room s'
    rw [hset'] at hset
    rw [hread'] at hread
    have haccepted : (s.note first).setTimeout limit = (.ok (), s') := by
      rcases hdone : (s.note first).setTimeout limit with ⟨_ | _, t⟩ <;> rw [hdone] at hset <;>
        cases hset
      rfl
    obtain ⟨htimeout, hclock, hpatience⟩ := setTimeout_eq_ok haccepted
    obtain ⟨hanswer, hs''⟩ := Prod.mk.inj hread
    have hs'' : ((s'.note second).read room).2 = s'' := hs''
    have hprogress := (s'.note second).read_progress hroom
    have htimeout' : (s'.note second).timeout = limit := htimeout
    rw [hs'', note_patience, hpatience, note_patience, note_clock, htimeout', hclock,
      note_clock] at hprogress
    rw [h.patience_eq, h.patience_eq, h.now_eq, h.now_eq]
    refine hprogress.imp_right (.imp_right (.imp_left ?_))
    rintro ⟨bytes, hbytes, hne⟩
    refine ⟨bytes, ?_, hne⟩
    rw [← hanswer, hbytes]
    rfl

end Script

namespace Device

variable {World Part : Type} {part : World → Part} {replace : Part → World → World}
  {device : Device Part}

/-- A device that is seen from a larger world lets readers go on there, too, in the worlds from
which its own part can be had back. -/
theorem Timely.within (h : device.Timely fun _ ↦ True) {sane : World → Prop}
    (hpart : ∀ {w}, sane w → ∀ v, sane (replace v w) ∧ part (replace v w) = v) :
    (device.within part replace).Timely sane where
  sane_perform hw call := (hpart hw _).1
  progress := by
    intro limit room w w' w'' answer hw hroom hset hread hwaits
    rcases hset' : device.perform (.set (.timeout limit)) (part w) with ⟨accepted, v⟩
    obtain ⟨haccepted, hw'⟩ := Prod.mk.inj hset
    rw [hset'] at haccepted hw'
    obtain rfl : accepted = .ok () := haccepted
    obtain ⟨hsane, hback⟩ := hpart hw v
    rw [show replace v w = w' from hw'] at hsane hback
    rcases hread' : device.perform (.read room) v with ⟨answer', v'⟩
    obtain ⟨hanswer, hw''⟩ := Prod.mk.inj hread
    rw [hback, hread'] at hanswer hw''
    obtain rfl : answer' = answer := hanswer
    have hback' := (hpart hsane v').2
    rw [show replace v' w' = w'' from hw''] at hback'
    have hprogress := h.progress trivial hroom hset' hread' hwaits
    show device.patience (part w'') < device.patience (part w) ∨
      device.patience (part w'') ≤ device.patience (part w) ∧
        (_ ∨ device.now (part w) + limit.nanos ≤ device.now (part w''))
    rw [hback']
    exact hprogress

/-- It is as patient there, also in worlds that keep the part that they have, if writes to that part
do not fail. -/
theorem Patient.within (h : device.Patient)
    (hpart : ∀ w v, part (replace v w) = v ∨ part (replace v w) = part w ∧
      ∀ offered e, (device.perform (.write offered) (part w)).1 ≠ .error e) :
    (device.within part replace).Patient where
  interrupted_lt := by
    intro offered w e w' hanswer hkind
    obtain ⟨herror, rfl⟩ := Prod.mk.inj hanswer
    show device.patience (part (replace _ w)) < device.patience (part w)
    rcases hpart w (device.perform (.write offered) (part w)).2 with hpart | ⟨-, hworks⟩
    · rw [hpart]
      exact h.interrupted_lt (Prod.ext herror rfl) hkind
    · exact absurd herror (hworks offered e)
  taken_le := by
    intro offered w n w' hanswer
    obtain ⟨hok, rfl⟩ := Prod.mk.inj hanswer
    show device.patience (part (replace _ w)) ≤ device.patience (part w)
    rcases hpart w (device.perform (.write offered) (part w)).2 with hpart | ⟨hpart, -⟩
    · rw [hpart]
      exact h.taken_le (Prod.ext hok rfl)
    · exact Nat.le_of_eq (by rw [hpart])

end Device

namespace Rack

theorem script_setScript {rack : Rack} {i : Nat} (h : i < rack.devices.length) (script : Script) :
    (rack.setScript i script).script i = script := by
  simp [Rack.script, setScript, h]

@[simp] theorem length_setScript (rack : Rack) (i : Nat) (script : Script) :
    (rack.setScript i script).devices.length = rack.devices.length := by
  simp [setScript]

theorem speaks (underHost : Bool) :
    Script.Speaks (if underHost then Script.hostPort.device else Script.device) := by
  cases underHost
  · exact Script.device_speaks
  · exact Script.hostPort_speaks

/-- The devices that are in the rack let their readers go on. -/
theorem device_timely (underHost : Bool) (i : Nat) :
    (device underHost i).Timely fun rack ↦ i < rack.devices.length :=
  (speaks underHost).timely.within fun {rack} hrack script ↦
    ⟨by rwa [length_setScript], script_setScript hrack script⟩

/-- In the place of a device that was never added there is always a new script. -/
theorem script_of_le {rack : Rack} {i : Nat} (h : rack.devices.length ≤ i) :
    rack.script i = {} := by
  simp [Rack.script, List.getElem?_eq_none h]

/-- A new script takes all it is offered, so it does not matter that its place keeps nothing. -/
theorem device_patient (underHost : Bool) (i : Nat) : (device underHost i).Patient := by
  refine (speaks underHost).patient.within fun rack script ↦ ?_
  by_cases hplace : i < rack.devices.length
  · exact .inl (script_setScript hplace script)
  · have hnew := script_of_le (Nat.le_of_not_lt hplace)
    refine .inr ⟨?_, fun offered e hfailed ↦ ?_⟩
    · rw [hnew, script_of_le]
      rw [length_setScript]
      exact Nat.le_of_not_lt hplace
    · rw [hnew] at hfailed
      cases underHost <;> cases hfailed

end Rack

end SerialLine
