import SerialLine.HostPort
import SerialLine.Proofs.Session.Line
import SerialLine.Script
/-!
# Ports of the host in step with their sessions

A port of the host knows fewer settings than a line has. What it holds is the image of a line
(`Host.Settings.toLine`), and `device_holds` shows that a port which keeps to what it has accepted
is a device that does. The record of a session over such a port therefore always has a counterpart
on the host, which is what the port holds (`ofLine_of_sameLine`). A change without a counterpart is
refused before the port is asked (`set_of_unsupported`).

`settings_in_step` states the agreement of sessions with their devices over whole histories, for
devices in general and for ports of the host.
-/

set_option autoImplicit false

namespace SerialLine

/-! ### Lines that the host can express -/

namespace Host

def Parity.toLine : Parity → SerialLine.Parity
  | .none => .none
  | .odd => .odd
  | .even => .even

def StopBits.toLine : StopBits → SerialLine.StopBits
  | .one => .one
  | .two => .two

def FlowControl.toLine : FlowControl → SerialLine.FlowControl
  | .none => .none
  | .software => .xonXoff
  | .hardware => .rtsCts

@[simp] theorem Parity.ofLine_toLine (mode : Parity) : ofLine mode.toLine = .ok mode := by
  cases mode <;> rfl

@[simp] theorem StopBits.ofLine_toLine (length : StopBits) : ofLine length.toLine = .ok length := by
  cases length <;> rfl

@[simp] theorem FlowControl.ofLine_toLine (mode : FlowControl) :
    ofLine mode.toLine = .ok mode := by
  cases mode <;> rfl

theorem Parity.toLine_of_ofLine {mode : SerialLine.Parity} {image : Parity}
    (h : ofLine mode = .ok image) : image.toLine = mode := by
  cases mode <;> cases h <;> rfl

theorem StopBits.toLine_of_ofLine {length : SerialLine.StopBits} {image : StopBits}
    (h : ofLine length = .ok image) : image.toLine = length := by
  cases length <;> cases h <;> rfl

theorem FlowControl.toLine_of_ofLine {mode : SerialLine.FlowControl} {image : FlowControl}
    (h : ofLine mode = .ok image) : image.toLine = mode := by
  cases mode <;> cases h <;> rfl

namespace Settings

/-- The line that a port is set to. -/
def toLine (s : Settings) : LineSettings where
  baudRate := s.baudRate
  dataBits := s.dataBits
  parity := s.parity.toLine
  stopBits := s.stopBits.toLine
  flowControl := s.flowControl.toLine
  timeout := s.timeout

/-- A line that agrees with the one a port is set to is a line the host can express. -/
theorem ofLine_of_sameLine {held : Settings} {line : LineSettings}
    (h : held.toLine.SameLine line) : ofLine line = .ok { held with timeout := line.timeout } := by
  have hparity : Parity.ofLine line.parity = .ok held.parity :=
    h.parity_eq ▸ Parity.ofLine_toLine held.parity
  have hstopBits : StopBits.ofLine line.stopBits = .ok held.stopBits :=
    h.stopBits_eq ▸ StopBits.ofLine_toLine held.stopBits
  have hflowControl : FlowControl.ofLine line.flowControl = .ok held.flowControl :=
    h.flowControl_eq ▸ FlowControl.ofLine_toLine held.flowControl
  rw [ofLine, hparity, hstopBits, hflowControl, ← h.baudRate_eq, ← h.dataBits_eq]
  rfl

/-- A port that was opened with the image of a line is set to that line. -/
theorem toLine_of_ofLine {held : Settings} {line : LineSettings} (h : ofLine line = .ok held) :
    held.toLine.SameLine line ∧ held.timeout = line.timeout := by
  rw [ofLine] at h
  cases hparity : Parity.ofLine line.parity with
  | error e => simp [hparity, bind, Except.bind] at h
  | ok parity =>
    cases hstopBits : StopBits.ofLine line.stopBits with
    | error e => simp [hparity, hstopBits, bind, Except.bind] at h
    | ok stopBits =>
      cases hflowControl : FlowControl.ofLine line.flowControl with
      | error e => simp [hparity, hstopBits, hflowControl, bind, Except.bind] at h
      | ok flowControl =>
        rw [hparity, hstopBits, hflowControl] at h
        cases h
        exact ⟨⟨rfl, rfl, Parity.toLine_of_ofLine hparity, StopBits.toLine_of_ofLine hstopBits,
          FlowControl.toLine_of_ofLine hflowControl⟩, rfl⟩

/-- What a port holds after a call: a setting that it has accepted has its new value. -/
def accept (held : Settings) : (call : Call) → Except Error call.Answer → Settings
  | .setBaudRate rate, .ok _ => { held with baudRate := rate }
  | .setDataBits bits, .ok _ => { held with dataBits := bits }
  | .setParity mode, .ok _ => { held with parity := mode }
  | .setStopBits length, .ok _ => { held with stopBits := length }
  | .setFlowControl mode, .ok _ => { held with flowControl := mode }
  | .setTimeout limit, .ok _ => { held with timeout := limit }
  | _, _ => held

end Settings

end Host

/-- A change that the host has no counterpart for. -/
def Setting.Unsupported : Setting → Prop
  | .parity mode => mode = .mark ∨ mode = .space
  | .stopBits length => length = .onePointFive
  | .flowControl mode => mode = .dtrDsr
  | _ => False

namespace HostPort

variable {World : Type} {port : HostPort World} {held : World → Host.Settings}

/-- A view of the world shows what the port holds. A setting that it rejects keeps its old value,
and no other call changes anything. -/
def Holds (port : HostPort World) (held : World → Host.Settings) : Prop :=
  ∀ call w, held (port.perform call w).2 = (held w).accept call (port.perform call w).1

/-- A port that keeps to what it has accepted is a device that does. A change that it is not asked
for is one that the device has rejected. -/
theorem device_holds (h : port.Holds held) : port.device.Holds fun w ↦ (held w).toLine := by
  intro call w
  unfold Device.exchange
  cases call with
  | set change =>
    cases change with
    | baudRate rate =>
      simp only [device, lift, h (.setBaudRate rate) w]
      cases (port.perform (.setBaudRate rate) w).1 <;> rfl
    | dataBits bits =>
      simp only [device, lift, h (.setDataBits bits) w]
      cases (port.perform (.setDataBits bits) w).1 <;> rfl
    | parity mode =>
      cases himage : Host.Parity.ofLine mode with
      | error e => simp only [device, himage, LineSettings.accept]
      | ok image =>
        simp only [device, himage, lift, h (.setParity image) w]
        rw [← Host.Parity.toLine_of_ofLine himage]
        cases (port.perform (.setParity image) w).1 <;> rfl
    | stopBits length =>
      cases himage : Host.StopBits.ofLine length with
      | error e => simp only [device, himage, LineSettings.accept]
      | ok image =>
        simp only [device, himage, lift, h (.setStopBits image) w]
        rw [← Host.StopBits.toLine_of_ofLine himage]
        cases (port.perform (.setStopBits image) w).1 <;> rfl
    | flowControl mode =>
      cases himage : Host.FlowControl.ofLine mode with
      | error e => simp only [device, himage, LineSettings.accept]
      | ok image =>
        simp only [device, himage, lift, h (.setFlowControl image) w]
        rw [← Host.FlowControl.toLine_of_ofLine himage]
        cases (port.perform (.setFlowControl image) w).1 <;> rfl
    | timeout limit =>
      simp only [device, lift, h (.setTimeout limit) w]
      cases (port.perform (.setTimeout limit) w).1 <;> rfl
  | bytesToRead => exact congrArg Host.Settings.toLine (h .bytesToRead w)
  | clearInput => exact congrArg Host.Settings.toLine (h (.clear .input) w)
  | clearOutput => exact congrArg Host.Settings.toLine (h (.clear .output) w)
  | read room => exact congrArg Host.Settings.toLine (h (.read room) w)
  | write offered => exact congrArg Host.Settings.toLine (h (.write offered) w)
  | flush => exact congrArg Host.Settings.toLine (h .flush w)

/-- The same port with a memory of the settings that it has accepted beside its world. -/
def remembering (port : HostPort World) : HostPort (World × Host.Settings) where
  perform call w :=
    ((port.perform call w.1).1, (port.perform call w.1).2,
      w.2.accept call (port.perform call w.1).1)
  now w := port.now w.1
  patience w := port.patience w.1

theorem remembering_holds (port : HostPort World) : port.remembering.Holds Prod.snd :=
  fun _ _ ↦ rfl

end HostPort

namespace Session

variable {World Other : Type}

/-- A change without a counterpart on the host is refused, and the port is not asked. -/
theorem set_of_unsupported {port : HostPort World} {s : Session World}
    (hdevice : s.device = port.device) {change : Setting} (hchange : change.Unsupported)
    (w : World) : ∃ reason, s.set change w = ⟨.error (.invalidArgument reason), s, w⟩ := by
  have hset : s.set change w = s.configure change w := by
    cases change with
    | baudRate rate => exact hchange.elim
    | _ => rfl
  have hanswer : ∃ what,
      s.device.perform (.set change) w = (.error (Host.unsupported what), w) := by
    rw [hdevice]
    cases change with
    | parity mode => rcases hchange with rfl | rfl <;> exact ⟨_, rfl⟩
    | stopBits length =>
      cases hchange
      exact ⟨_, rfl⟩
    | flowControl mode =>
      cases hchange
      exact ⟨_, rfl⟩
    | _ => exact hchange.elim
  obtain ⟨what, hanswer⟩ := hanswer
  rw [hset, configure, hanswer]
  exact ⟨.stated what, rfl⟩

/-- After a history the device holds what is on record. -/
structure InStep (held : World → LineSettings) (run : Run World) : Prop where
  line : (held run.world).SameLine run.session.settings
  timeout : (∀ x ∈ run.exchanges, ¬ x.RejectsTimeout) →
    (held run.world).timeout = run.session.settings.timeout

/-- After a history the port of the host holds the image of what is on record, which always has
one. -/
structure HostInStep (held : World → Host.Settings) (run : Run World) : Prop where
  image : Host.Settings.ofLine run.session.settings =
    .ok { held run.world with timeout := run.session.settings.timeout }
  timeout : (∀ x ∈ run.exchanges, ¬ x.RejectsTimeout) →
    (held run.world).timeout = run.session.settings.timeout
  /-- Where the history goes on with a change that the host cannot express, nothing happens. -/
  refused : ∀ {change : Setting}, change.Unsupported → ∃ reason,
    run.session.perform run.world (.set change) =
      ⟨.error (.invalidArgument reason), run.session, run.world⟩

/-- A session whose device holds what is on record stays in step with it. -/
theorem inStep_run {s : Session World} {held : World → LineSettings} (hheld : s.device.Holds held)
    {w : World} (hline : (held w).SameLine s.settings)
    (htimeout : (held w).timeout = s.settings.timeout) (ops : List Operation) :
    InStep held (s.run w ops) := by
  have hworld := Device.Follows.held_eq hheld (follows_run s w ops)
  constructor
  · rw [hworld]
    exact run_sameLine hline w ops
  · intro haccepts
    rw [hworld]
    exact run_timeout htimeout w ops haccepts

theorem run_device (s : Session World) (w : World) (ops : List Operation) :
    (s.run w ops).session.device = s.device := by
  induction ops generalizing s w with
  | nil => rfl
  | cons op ops ih =>
    rw [run_cons_session, ih]
    exact s.perform_device w op

theorem hostInStep_run {s : Session World} {port : HostPort World} {held : World → Host.Settings}
    (hdevice : s.device = port.device) (hheld : port.Holds held) {w : World}
    (hline : (held w).toLine.SameLine s.settings)
    (htimeout : (held w).timeout = s.settings.timeout) (ops : List Operation) :
    HostInStep held (s.run w ops) := by
  have hholds : s.device.Holds fun w ↦ (held w).toLine := hdevice ▸ HostPort.device_holds hheld
  have hstep := inStep_run hholds hline htimeout ops
  refine ⟨Host.Settings.ofLine_of_sameLine hstep.line, hstep.timeout, fun hchange ↦ ?_⟩
  exact set_of_unsupported ((run_device s w ops).trans hdevice) hchange _

/-- A session is made over a device that has been brought to its settings, and used in any way,
whatever the device answers. At every moment the line that the device holds is the one on record,
and so is its timeout unless it has rejected one. Over a port of the host, the line on record is
moreover one that the host can express, and the port holds its image. There it makes no difference
whether the port was brought to the settings or opened with their image. -/
theorem settings_in_step {device : Device World} {held : World → LineSettings}
    (hdevice : device.Holds held) {port : HostPort Other} {hostHeld : Other → Host.Settings}
    (hport : port.Holds hostHeld) (p : Port) (settings : LineSettings) (ops : List Operation) :
    (∀ w₀ w, device.apply settings w₀ = (.ok (), w) →
        InStep held (({ port := p, device, settings } : Session World).run w ops)) ∧
      ∀ w₀ w, port.device.apply settings w₀ = (.ok (), w) ∨
          Host.Settings.ofLine settings = .ok (hostHeld w) →
        HostInStep hostHeld
          (({ port := p, device := port.device, settings } : Session Other).run w ops) := by
  refine ⟨fun w₀ w happlied ↦ ?_, fun w₀ w hready ↦ ?_⟩
  · obtain ⟨hline, htimeout⟩ := Device.apply_held hdevice happlied
    exact inStep_run hdevice hline htimeout ops
  · obtain ⟨hline, htimeout⟩ : (hostHeld w).toLine.SameLine settings ∧
        (hostHeld w).timeout = settings.timeout := by
      rcases hready with happlied | hopened
      · exact Device.apply_held (HostPort.device_holds hport) happlied
      · exact Host.Settings.toLine_of_ofLine hopened
    exact hostInStep_run rfl hport hline htimeout ops

/-- A port with other settings is brought to the usual ones. It rejects a baud rate later, takes odd
parity and a timeout, and is not asked for mark parity. A read finds two bytes and then waits. -/
theorem settings_in_step_scripted :
    let port := Script.hostPort.remembering
    let script : Script :=
      { reads := [.data [1, 2]]
        calls := [(.setBaudRate, .passes), (.setBaudRate, .fails ⟨.unknown, "busy"⟩)] }
    let old : Host.Settings := ⟨300, .seven, .even, .two, .software, ⟨1⟩⟩
    let applied := port.device.apply {} (script, old)
    let run := ({ port := .onboard, device := port.device, settings := {} } : Session _).run
      applied.2 [.set (.baudRate 115200), .set (.parity .odd), .set (.timeout ⟨7⟩),
        .set (.parity .mark), .read 4]
    (applied.1 = .ok () ∧
      run.session.settings = ({ parity := .odd, timeout := ⟨7⟩ } : LineSettings) ∧
      run.world.2 = ⟨9600, .eight, .odd, .one, .none, ⟨7⟩⟩) ∧
    InStep (fun w ↦ w.2.toLine) run ∧ HostInStep Prod.snd run := by
  intro port script old applied run
  have hport : port.Holds Prod.snd := Script.hostPort.remembering_holds
  have happlied : port.device.apply {} (script, old) = (.ok (), applied.2) := by rfl
  obtain ⟨hdevice, hhost⟩ := settings_in_step (HostPort.device_holds hport) hport .onboard {}
    [.set (.baudRate 115200), .set (.parity .odd), .set (.timeout ⟨7⟩), .set (.parity .mark),
      .read 4]
  exact ⟨⟨by rfl, by decide +kernel, by decide +kernel⟩, hdevice _ _ happlied,
    hhost _ _ (.inl happlied)⟩

end Session

end SerialLine
