import SerialLine.Proofs.Registry.LifeCycle
import SerialLine.Proofs.Session.Devices
import SerialLine.Proofs.Session.Setters
/-!
# Sessions of a registry come to an end

Whether the loops of a session end rests on two things that the loops do not look at: the settings
of the session pass their checks, and its device is one that lets sessions end, in the world as it
is. The first is so from the start, since a registry opens nothing with settings that do not, and
lasts because no setter, failing or not, stores a zero (`validate_perform`). The second is stated of
devices and worlds that may only become later ones (`Opener.Upholds`), and lasts through everything
that the registry does with its devices and through everything that happens to them from outside.

`sessions_end` puts the two together for a bench of loopback devices and a rack of scripted ones:
whatever the defaults, and whatever was done before, every operation ends, with what it comes to.
-/

set_option autoImplicit false

namespace SerialLine

variable {World : Type}

namespace Session

/-! ### Settings that pass their checks -/

/-- An operation keeps settings that pass their checks, whatever it comes to. Those that would not
pass are refused before anything is on record. -/
theorem validate_perform {s : Session World} (h : s.settings.validate = .ok ()) (w : World)
    (op : Operation) : (s.perform w op).session.settings.validate = .ok () := by
  rcases s.settings_cases w op with ⟨hrecorded, hsize, -⟩ | ⟨hkept, -⟩
  · have hvalid := s.settings.validate_eq_ok_iff.mp h
    cases op with
    | set change =>
      cases change with
      | baudRate rate =>
        by_cases hrate : rate = 0
        · simpa [perform, set, checkBaudRate, hrate] using h
        · rw [hrecorded, LineSettings.validate_eq_ok_iff]
          exact ⟨Nat.pos_of_ne_zero hrate, hvalid.2⟩
      | _ =>
        rw [hrecorded, LineSettings.validate_eq_ok_iff]
        exact hvalid
    | setReadBufferSize size =>
      by_cases hzero : size = 0
      · simpa [perform, setReadBufferSize, checkBufferSize, hzero] using h
      · rw [hrecorded, LineSettings.validate_eq_ok_iff]
        exact ⟨hvalid.1, Nat.pos_of_ne_zero hzero, hvalid.2.2⟩
    | setWriteBufferSize size =>
      rw [hrecorded, LineSettings.validate_eq_ok_iff]
      exact ⟨hvalid.1, hvalid.2.1, Nat.pos_of_ne_zero (hsize size rfl)⟩
    | _ =>
      rw [hrecorded, LineSettings.validate_eq_ok_iff]
      exact hvalid
  · rwa [hkept]

end Session

/-! ### Worlds that become later ones -/

/-- A property of devices and worlds lasts as long as worlds only become later ones. Calls of such
devices lead to later worlds, and so does the opening of a port, from which comes such a device. -/
structure Opener.Upholds (opener : Opener World) (good : Device World → World → Prop)
    (later : World → World → Prop) : Prop where
  refl : ∀ w, later w w
  trans : ∀ {w w' w''}, later w w' → later w' w'' → later w w''
  good_later : ∀ {device w w'}, good device w → later w w' → good device w'
  perform : ∀ {device w}, good device w → ∀ call, later w (device.perform call w).2
  openPort : ∀ p settings w, later w (opener.openPort p settings w).2
  opened : ∀ {p settings w device w'}, opener.openPort p settings w = (.ok device, w') →
    good device w'

namespace Opener.Upholds

variable {opener : Opener World} {good : Device World → World → Prop}
  {later : World → World → Prop} (h : opener.Upholds good later)
include h

theorem follows {device : Device World} {w w' : World} {log : List Exchange}
    (hgood : good device w) (hlog : device.Follows w log w') : later w w' := by
  induction hlog with
  | nil => exact h.refl w
  | snoc _ call ih => exact h.trans ih (h.perform (h.good_later hgood ih) call)

theorem session {s : Session World} {w : World} (hgood : good s.device w) (op : Operation) :
    later w (s.perform w op).world :=
  h.follows hgood (s.follows_exchanges w op)

theorem close {s : Session World} {w : World} (hgood : good s.device w) :
    later w (s.close w).world := by
  obtain ⟨log, hlog⟩ := s.follows_close w
  exact h.follows hgood hlog

end Opener.Upholds

namespace Registry

/-- Every session has a device of a certain kind, in the world as it is. -/
def Holds (good : Device World → World → Prop) (r : Registry World) (w : World) : Prop :=
  ∀ p s, r.sessions p = some s → good s.device w

section Holds

variable {r : Registry World} {w : World} {good : Device World → World → Prop}
  {later : World → World → Prop}

theorem Holds.onward (h : r.opener.Upholds good later) {w' : World} (hr : r.Holds good w)
    (hw : later w w') : r.Holds good w' :=
  fun p s hs ↦ h.good_later (hr p s hs) hw

theorem Holds.put (hr : r.Holds good w) (p : Port) {place : Option (Session World)}
    (hplace : ∀ s, place = some s → good s.device w) : (r.put p place).Holds good w := by
  intro q s hs
  by_cases hq : q = p
  · rw [hq, put_sessions_self] at hs
    exact hplace s hs
  · rw [put_sessions_of_ne r _ hq] at hs
    exact hr q s hs

/-- What a step of a registry does to its devices and to the world. -/
def Lasts (good : Device World → World → Prop) (later : World → World → Prop) (w : World)
    {α : Type} (done : Result World α) : Prop :=
  done.registry.Holds good done.world ∧ later w done.world

theorem openPort_lasts (h : r.opener.Upholds good later) (hr : r.Holds good w) (p : Port) :
    Lasts good later w (r.openPort p w) := by
  have hlater := h.openPort p r.defaults w
  rcases r.openPort_cases p w with ⟨-, hdone⟩ | ⟨-, _, -, hdone⟩ | ⟨-, -, e, w', hopened, hdone⟩ |
    ⟨-, -, device, w', hopened, hdone⟩ <;> rw [hdone]
  · exact ⟨hr, h.refl w⟩
  · exact ⟨hr, h.refl w⟩
  · rw [hopened] at hlater
    exact ⟨hr.onward h hlater, hlater⟩
  · rw [hopened] at hlater
    refine ⟨(hr.onward h hlater).put p fun s hs ↦ ?_, hlater⟩
    rw [← Option.some.inj hs]
    exact h.opened hopened

theorem close_lasts (h : r.opener.Upholds good later) (hr : r.Holds good w) (p : Port) :
    Lasts good later w (r.close p w) := by
  by_cases hopen : r.IsOpen p
  · obtain ⟨s, hs⟩ := isOpen_iff.mp hopen
    have hlater := h.close (hr p s hs)
    rw [close_of_open hs]
    exact ⟨(hr.onward h hlater).put p fun s hs ↦ (by cases hs), hlater⟩
  · rw [close_of_closed hopen]
    exact ⟨hr, h.refl w⟩

/-- By induction on the ports. -/
theorem closeEach_lasts (ps : List Port) (h : r.opener.Upholds good later)
    (hr : r.Holds good w) : Lasts good later w (r.closeEach w ps) := by
  induction ps generalizing r w with
  | nil => exact ⟨hr, h.refl w⟩
  | cons p ps ih =>
    have hclosed := close_lasts h hr p
    have hopener := (r.close_source p w).1
    unfold closeEach
    rcases hdone : r.close p w with ⟨outcome, r', w'⟩
    rw [hdone] at hclosed hopener
    have hrest := ih (r := r') (w := w') (hopener ▸ h) hclosed.1
    cases outcome with
    | halt reason => exact hclosed
    | _ => exact ⟨hrest.1, h.trans hclosed.2 hrest.2⟩

theorem perform_lasts (h : r.opener.Upholds good later) (hr : r.Holds good w) (p : Port)
    (op : Operation) : Lasts good later w (r.perform p op w) := by
  unfold perform
  by_cases hopen : r.IsOpen p
  · obtain ⟨s, hs⟩ := isOpen_iff.mp hopen
    have hlater := h.session (hr p s hs) op
    rw [onSession_of_open _ hs]
    refine ⟨(hr.onward h hlater).put p fun t ht ↦ ?_, hlater⟩
    rw [← Option.some.inj ht, s.perform_device w op]
    exact h.good_later (hr p s hs) hlater
  · rw [onSession_of_closed _ hopen]
    exact ⟨hr, h.refl w⟩

theorem move_lasts (h : r.opener.Upholds good later) (hr : r.Holds good w) (m : Move) :
    Lasts good later w (r.move w m) := by
  cases m with
  | openPort p => exact openPort_lasts h hr p
  | close p => exact close_lasts h hr p
  | closeAll => exact closeEach_lasts r.openPorts h hr
  | lookup p =>
    obtain ⟨hregistry, hworld⟩ := (r.lookup_lawful p w).unchanged
    unfold Lasts
    rw [move, hregistry, hworld]
    exact ⟨hr, h.refl w⟩
  | perform p op => exact perform_lasts h hr p op

end Holds

/-- The states that a registry and its world may come to, from one in which no port is open: by
moves of the registry, and by whatever changes the world from outside. -/
inductive Reaches (opener : Opener World) (defaults : LineSettings)
    (outside : World → World → Prop) : Registry World → World → Prop
  | start (w : World) : Reaches opener defaults outside { opener, defaults } w
  | move {r : Registry World} {w : World} (h : Reaches opener defaults outside r w) (m : Move) :
    Reaches opener defaults outside (r.move w m).registry (r.move w m).world
  | outside {r : Registry World} {w w' : World} (h : Reaches opener defaults outside r w)
    (hw : outside w w') : Reaches opener defaults outside r w'

/-- In every state, the settings of all sessions pass their checks, and their devices are of the
kind that the opener upholds. -/
theorem Reaches.invariant {opener : Opener World} {defaults : LineSettings}
    {good : Device World → World → Prop} {later : World → World → Prop} {r : Registry World}
    {w : World} (hr : Reaches opener defaults later r w) (h : opener.Upholds good later) :
    r.opener = opener ∧ r.Ensures (fun s ↦ s.settings.validate = .ok ()) ∧ r.Holds good w := by
  induction hr with
  | start w => exact ⟨rfl, ⟨by simp, fun hvalid _ _ _ _ _ ↦ hvalid⟩, fun _ _ hs ↦ by cases hs⟩
  | @move r w _ m ih =>
    obtain ⟨rfl, hvalid, hholds⟩ := ih
    exact ⟨(r.move_source w m).1,
      hvalid.move (fun s w op hs ↦ Session.validate_perform hs w op) w m,
      (move_lasts h hholds m).1⟩
  | outside _ hw ih =>
    obtain ⟨rfl, hvalid, hholds⟩ := ih
    exact ⟨rfl, hvalid, hholds.onward h hw⟩

/-! ### Bench and rack -/

/-- The devices of a bench stay devices of the bench, whatever becomes of it. -/
theorem bench_upholds :
    Bench.opener.Upholds (fun device _ ↦ ∃ i, device = Bench.device i) fun _ _ ↦ True where
  refl _ := trivial
  trans _ _ := trivial
  good_later hdevice _ := hdevice
  perform _ _ := trivial
  openPort _ _ _ := trivial
  opened hopened := by
    have hsupplies : Bench.opener.Supplies fun device ↦ ∃ i, device = Bench.device i := by
      apply Bench.opener_supplies
      exact fun i ↦ ⟨i, rfl⟩
    exact hsupplies hopened

end Registry

namespace Rack

/-- The device is one of those that are in the rack. -/
def Has (device : Device Rack) (rack : Rack) : Prop :=
  ∃ underHost i, device = Rack.device underHost i ∧ i < rack.devices.length

/-- Whatever changes a rack, it loses none of its devices. -/
def Keeps (rack rack' : Rack) : Prop := rack.devices.length ≤ rack'.devices.length

theorem length_applyChanges (underHost : Bool) (i : Nat) (changes : List Setting) (rack : Rack) :
    ((device underHost i).applyChanges changes rack).2.devices.length = rack.devices.length := by
  induction changes generalizing rack with
  | nil => rfl
  | cons change changes ih =>
    have hkept : ((device underHost i).perform (.set change) rack).2.devices.length =
        rack.devices.length := length_setScript rack i _
    unfold Device.applyChanges
    rcases hdone : (device underHost i).perform (.set change) rack with ⟨_ | _, rack'⟩ <;>
      rw [hdone] at hkept
    · exact hkept
    · exact (ih rack').trans hkept

/-- Opening a port adds one device at most, and hands out the one that was added. -/
theorem openPort_cases (p : Port) (settings : LineSettings) (rack : Rack) :
    (∃ e rack', opener.openPort p settings rack = (.error e, rack') ∧ rack.Keeps rack') ∨
      ∃ underHost rack', opener.openPort p settings rack =
          (.ok (device underHost rack.devices.length), rack') ∧
        rack'.devices.length = rack.devices.length + 1 := by
  simp only [opener]
  cases ((rack.opens.find? (·.1 = p)).map (·.2)).getD (.device {} false) with
  | fails e => exact .inl ⟨e, _, rfl, Nat.le_refl _⟩
  | device script underHost =>
    have hlength := length_applyChanges underHost rack.devices.length settings.changes
      { rack with
        opens := rack.opens.eraseP (·.1 = p)
        devices := rack.devices ++ [(p, { script with pace := rack.pace })] }
    simp only [Device.apply]
    rcases hdone : (device underHost rack.devices.length).applyChanges settings.changes _ with
      ⟨e | _, rack'⟩ <;> rw [hdone] at hlength
    · refine .inl ⟨_, rack', rfl, ?_⟩
      simp [Keeps, hlength]
    · refine .inr ⟨underHost, rack', rfl, ?_⟩
      simp [hlength]

theorem upholds : opener.Upholds Has Keeps where
  refl _ := Nat.le_refl _
  trans h h' := Nat.le_trans h h'
  good_later := by
    rintro _ rack rack' ⟨underHost, i, rfl, hi⟩ hkeeps
    exact ⟨underHost, i, rfl, Nat.lt_of_lt_of_le hi hkeeps⟩
  perform := by
    rintro _ rack ⟨underHost, i, rfl, -⟩ call
    exact Nat.le_of_eq (length_setScript rack i _).symm
  openPort p settings rack := by
    rcases openPort_cases p settings rack with ⟨e, rack', hdone, hkeeps⟩ |
      ⟨underHost, rack', hdone, hlength⟩ <;> rw [hdone]
    · exact hkeeps
    · show rack.devices.length ≤ rack'.devices.length
      rw [hlength]
      exact Nat.le_succ _
  opened := by
    intro p settings rack device rack' hopened
    rcases openPort_cases p settings rack with ⟨e, rack'', hdone, -⟩ |
      ⟨underHost, rack'', hdone, hlength⟩ <;> rw [hdone] at hopened <;> cases hopened
    exact ⟨underHost, _, rfl, hlength ▸ Nat.lt_succ_self _⟩

end Rack

/-! ### Every operation ends -/

/-- Whatever a session is asked in a world, it comes to an end by itself, without a bound on any
loop. It returns, except when it is to read and the clock cannot tell the deadline. -/
structure Session.Ends (s : Session World) (w : World) : Prop where
  perform_eq : ∀ op, s.perform? w op = .some (s.perform w op)
  returns : ∀ {op reason}, (s.perform w op).outcome = .halt reason →
    reason = .deadlineOverflow ∧ (∃ limit, op = .read limit) ∧
      clockLimit ≤ s.device.now w + s.settings.timeout.nanos
  close_eq : s.close? w = .some (s.close w)
  close_returns : (s.close w).outcome = .ok ()

theorem Session.ends (sane : World → Prop) {s : Session World} {w : World}
    (hpatient : s.device.Patient) (htimely : s.device.Timely sane) (hw : sane w)
    (hsettings : s.settings.validate = .ok ()) : s.Ends w where
  perform_eq op := perform?_eq hpatient htimely hw hsettings op
  returns {op reason} hhalt := by
    obtain ⟨-, -, hwrite⟩ := s.settings.validate_eq_ok_iff.mp hsettings
    obtain ⟨hreason, limit, rfl⟩ := perform_eq_halt hpatient hwrite hhalt
    exact ⟨hreason, ⟨limit, rfl⟩, (read_eq_halt_iff.mp hhalt).2.2⟩
  close_eq := close?_eq hpatient w
  close_returns := close_eq_ok hpatient w

namespace Registry

/-- All sessions have settings that pass their checks, and end whatever they are asked. -/
def SessionsEnd (r : Registry World) (w : World) : Prop :=
  ∀ p s, r.sessions p = some s → s.settings.validate = .ok () ∧ s.Ends w

/-- Whatever the defaults are, every operation on an open port ends, in every state that a registry
over a bench may come to, and in every state of the bench, and in every state that a registry over a
rack of scripts may come to, even if devices of the rack get new scripts at any time. -/
theorem sessions_end (defaults : LineSettings) :
    (∀ r b, Reaches Bench.opener defaults (fun _ _ ↦ True) r b → r.SessionsEnd b) ∧
      ∀ r rack, Reaches Rack.opener defaults Rack.Keeps r rack → r.SessionsEnd rack := by
  constructor
  · intro r b hr p s hs
    obtain ⟨-, hvalid, hholds⟩ := hr.invariant bench_upholds
    obtain ⟨i, hdevice⟩ := hholds p s hs
    refine ⟨hvalid.held hs, Session.ends (fun _ ↦ True) ?_ ?_ trivial (hvalid.held hs)⟩
    · rw [hdevice]
      exact Bench.device_patient i
    · rw [hdevice]
      exact Bench.device_timely i
  · intro r rack hr p s hs
    obtain ⟨-, hvalid, hholds⟩ := hr.invariant Rack.upholds
    obtain ⟨underHost, i, hdevice, hi⟩ := hholds p s hs
    refine ⟨hvalid.held hs,
      Session.ends (fun rack ↦ i < rack.devices.length) ?_ ?_ hi (hvalid.held hs)⟩
    · rw [hdevice]
      exact Rack.device_patient underHost i
    · rw [hdevice]
      exact Rack.device_timely underHost i

/-- Two ports are open: one of a bench that has been unplugged and faulted since, and one of a rack
whose device interrupts, takes bytes one by one, and brings nothing for a while. -/
theorem sessions_end_onboard :
    let defaults : LineSettings := { writeMode := .flushWhenFull, writeBufferSize := 2 }
    let bench :=
      ({ opener := Bench.opener, defaults } : Registry Bench).move {} (.openPort .onboard)
    let later := (bench.world.setUnplugged .onboard true).setFaulted (.own .onboard) true
    let script : Script :=
      { reads := [.data [], .fails ⟨.io .interrupted, "scripted"⟩, .data [5, 6]]
        writes := [.fails ⟨.io .interrupted, "scripted"⟩, .takes 1, .takes 0] }
    let rack := ({ opener := Rack.opener, defaults } : Registry Rack).move
      { opens := [(.onboard, .device script true)] } (.openPort .onboard)
    (Reaches Bench.opener defaults (fun _ _ ↦ True) bench.registry later ∧
        bench.registry.IsOpen .onboard ∧ bench.registry.SessionsEnd later) ∧
      Reaches Rack.opener defaults Rack.Keeps rack.registry rack.world ∧
        rack.registry.IsOpen .onboard ∧ rack.registry.SessionsEnd rack.world := by
  intro defaults bench later script rack
  have hbench : Reaches Bench.opener defaults (fun _ _ ↦ True) bench.registry later :=
    .outside (.move (.start _) (.openPort .onboard)) trivial
  have hrack : Reaches Rack.opener defaults Rack.Keeps rack.registry rack.world :=
    .move (.start _) (.openPort .onboard)
  exact ⟨⟨hbench, by decide, (sessions_end defaults).1 _ _ hbench⟩, hrack, by decide,
    (sessions_end defaults).2 _ _ hrack⟩

end Registry

end SerialLine
