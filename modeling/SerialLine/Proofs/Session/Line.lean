import SerialLine.Proofs.Session.History
import SerialLine.Proofs.Session.Setters
/-!
# The line of the device and the line on record

A device holds a value for each setting that it was told, the one that it has last accepted.
`LineSettings.after` follows what it holds through a list of exchanges, and `Device.Holds` says of a
view of the world that it shows this.

The session has a record of the same settings. Setters change both or neither, whatever the device
answers. Reads shorten the timeout of the device before every chunk and give it back at the end
(`exchanges_read`), whether they succeed or fail. So the two agree on the line after every operation
(`sameLine_perform`) and, if the device accepts every timeout, on the timeout as well
(`timeout_perform`); `run_sameLine` and `run_timeout` are the same for histories.
-/

set_option autoImplicit false

namespace SerialLine

/-! ### What a device holds -/

namespace LineSettings

/-- Two records agree on the line itself: baud rate, data bits, parity, stop bits and flow
control. -/
structure SameLine (a b : LineSettings) : Prop where
  baudRate_eq : a.baudRate = b.baudRate
  dataBits_eq : a.dataBits = b.dataBits
  parity_eq : a.parity = b.parity
  stopBits_eq : a.stopBits = b.stopBits
  flowControl_eq : a.flowControl = b.flowControl

theorem SameLine.refl (a : LineSettings) : a.SameLine a := ⟨rfl, rfl, rfl, rfl, rfl⟩

theorem SameLine.trans {a b c : LineSettings} (hab : a.SameLine b) (hbc : b.SameLine c) :
    a.SameLine c where
  baudRate_eq := hab.baudRate_eq.trans hbc.baudRate_eq
  dataBits_eq := hab.dataBits_eq.trans hbc.dataBits_eq
  parity_eq := hab.parity_eq.trans hbc.parity_eq
  stopBits_eq := hab.stopBits_eq.trans hbc.stopBits_eq
  flowControl_eq := hab.flowControl_eq.trans hbc.flowControl_eq

theorem SameLine.record {a b : LineSettings} (h : a.SameLine b) (change : Setting) :
    (a.record change).SameLine (b.record change) := by
  obtain ⟨hbaudRate, hdataBits, hparity, hstopBits, hflowControl⟩ := h
  cases change <;> constructor <;> first | assumption | rfl

theorem timeout_record {a b : LineSettings} (h : a.timeout = b.timeout) (change : Setting) :
    (a.record change).timeout = (b.record change).timeout := by
  cases change <;> first | exact h | rfl

/-- What a device holds after an exchange: a change that it has accepted is made. -/
def accept (held : LineSettings) : Exchange → LineSettings
  | ⟨.set change, .ok _⟩ => held.record change
  | _ => held

/-- What a device holds after a list of exchanges. -/
def after (held : LineSettings) (log : List Exchange) : LineSettings := log.foldl accept held

@[simp] theorem after_append (held : LineSettings) (first second : List Exchange) :
    held.after (first ++ second) = (held.after first).after second := List.foldl_append

/-- An exchange that is no change of a setting leaves everything as it is. -/
theorem accept_of_ne {held : LineSettings} {x : Exchange} (h : ∀ change, x.call ≠ .set change) :
    held.accept x = held := by
  obtain ⟨call, answer⟩ := x
  cases call with
  | set change => exact absurd rfl (h change)
  | _ => rfl

theorem after_of_ne {held : LineSettings} {log : List Exchange}
    (h : ∀ x ∈ log, ∀ change, x.call ≠ .set change) : held.after log = held := by
  induction log with
  | nil => rfl
  | cons x log ih =>
    show (held.accept x).after log = held
    rw [accept_of_ne (h x List.mem_cons_self)]
    exact ih fun y hy ↦ h y (List.mem_cons_of_mem _ hy)

/-- Exchanges about nothing but the timeout leave the line alone. -/
theorem after_sameLine {held : LineSettings} {log : List Exchange}
    (h : ∀ x ∈ log, ∀ change, x.call = .set change → ∃ limit, change = .timeout limit) :
    (held.after log).SameLine held := by
  induction log generalizing held with
  | nil => exact .refl held
  | cons x log ih =>
    have hrest : ((held.accept x).after log).SameLine (held.accept x) :=
      ih fun y hy ↦ h y (List.mem_cons_of_mem _ hy)
    have hfirst : (held.accept x).SameLine held := by
      obtain ⟨call, answer⟩ := x
      cases call with
      | set change =>
        obtain ⟨limit, rfl⟩ := h _ List.mem_cons_self change rfl
        cases answer <;> exact ⟨rfl, rfl, rfl, rfl, rfl⟩
      | _ => exact .refl held
    exact hrest.trans hfirst

end LineSettings

/-- The device has not taken a timeout that it was told. -/
def Exchange.RejectsTimeout : Exchange → Prop
  | ⟨.set (.timeout _), .error _⟩ => True
  | _ => False

/-- A view of the world shows what the device holds. A change that it accepts is made, one that it
rejects leaves the old value, and no other call changes anything. -/
def Device.Holds {World : Type} (device : Device World) (held : World → LineSettings) : Prop :=
  ∀ call w, held (device.perform call w).2 = (held w).accept (device.exchange call w)

namespace Device

variable {World : Type} {device : Device World} {held : World → LineSettings}

theorem Follows.held_eq (h : device.Holds held) {w w' : World} {log : List Exchange}
    (hfollows : device.Follows w log w') : held w' = (held w).after log := by
  induction hfollows with
  | nil => rfl
  | snoc _ call ih => rw [h, ih, LineSettings.after_append]; rfl

/-- A device that was brought to some settings has accepted them one by one. -/
theorem applyChanges_held (h : device.Holds held) {changes : List Setting} {w w' : World}
    (happlied : device.applyChanges changes w = (.ok (), w')) :
    held w' = changes.foldl LineSettings.record (held w) := by
  induction changes generalizing w with
  | nil =>
    obtain ⟨-, rfl⟩ := Prod.mk.inj happlied
    rfl
  | cons change changes ih =>
    have hchange := h (.set change) w
    rw [exchange] at hchange
    unfold applyChanges at happlied
    rcases hanswer : device.perform (.set change) w with ⟨_ | _, v⟩ <;>
      rw [hanswer] at happlied hchange
    · cases (Prod.mk.inj happlied).1
    · rw [ih happlied, hchange]
      rfl

/-- After that it holds these settings. -/
theorem apply_held (h : device.Holds held) {settings : LineSettings} {w w' : World}
    (happlied : device.apply settings w = (.ok (), w')) :
    (held w').SameLine settings ∧ (held w').timeout = settings.timeout := by
  rw [applyChanges_held h happlied]
  exact ⟨⟨rfl, rfl, rfl, rfl, rfl⟩, rfl⟩

end Device

namespace Session

variable {World : Type}

/-! ### The exchanges of setters and reads -/

/-- Whether a change is refused or put to the device depends on nothing but the change. -/
theorem set_refuses_or_configures (change : Setting) :
    (∃ e, ∀ {World : Type} (s : Session World) (w : World),
        s.set change w = ⟨.error e, s, w⟩) ∨
      ∀ {World : Type} (s : Session World) (w : World),
        s.set change w = s.configure change w := by
  cases change with
  | baudRate rate =>
    cases hcheck : checkBaudRate rate with
    | error reason => exact .inl ⟨.invalidArgument reason, fun s w ↦ by simp only [set, hcheck]⟩
    | ok _ => exact .inr fun s w ↦ by simp only [set, hcheck]
  | _ => exact .inr fun s w ↦ rfl

/-- A setter that gets as far as the device changes the record as the device changes what it
holds. -/
theorem exchanges_set (s : Session World) (w : World) (change : Setting) :
    (s.exchanges w (.set change) = [] ∧
        (s.perform w (.set change)).session.settings = s.settings) ∨
      (s.exchanges w (.set change) = [s.device.exchange (.set change) w] ∧
        (s.perform w (.set change)).session.settings =
          s.settings.accept (s.device.exchange (.set change) w)) := by
  have hconfigure : (s.recorded.configure change (w, [])).world.2 =
        [s.device.exchange (.set change) w] ∧
      (s.configure change w).session.settings =
        s.settings.accept (s.device.exchange (.set change) w) := by
    have hlog : (s.recorded.device.perform (.set change) (w, [])).2.2 =
        [s.device.exchange (.set change) w] := rfl
    unfold configure Device.exchange
    constructor
    · rcases hanswer : s.recorded.device.perform (.set change) (w, []) with ⟨_ | _, w'⟩ <;>
        rw [hanswer] at hlog <;> exact hlog
    · rcases s.device.perform (.set change) w with ⟨_ | _, w'⟩ <;> rfl
  rcases set_refuses_or_configures change with ⟨e, hrefuses⟩ | hconfigures
  · have hlog : s.recorded.set change (w, []) = ⟨.error e, s.recorded, (w, [])⟩ := hrefuses _ _
    have hset : s.set change w = ⟨.error e, s, w⟩ := hrefuses s w
    left
    rw [exchanges, perform, hlog, perform, hset]
    exact ⟨rfl, rfl⟩
  · have hlog : s.recorded.set change (w, []) = s.recorded.configure change (w, []) :=
      hconfigures _ _
    have hset : s.set change w = s.configure change w := hconfigures s w
    right
    rw [exchanges, perform, hlog, perform, hset]
    exact hconfigure

/-- A read ends by giving the device its timeout back, unless it has not begun. -/
theorem exchanges_read (s : Session World) (w : World) (limit : Nat) :
    s.exchanges w (.read limit) = [] ∨ ∃ log v, s.exchanges w (.read limit) =
      log ++ [s.device.exchange (.set (.timeout s.settings.timeout)) v] := by
  show (s.recorded.read limit (w, [])).world.2 = [] ∨ ∃ log v,
    (s.recorded.read limit (w, [])).world.2 =
      log ++ [s.device.exchange (.set (.timeout s.settings.timeout)) v]
  have hends := s.recorded.read_ends limit (w, [])
  generalize s.recorded.read limit (w, []) = done at hends ⊢
  cases hends with
  | nothing | overflow => exact .inl rfl
  | @frame t v _ gathered | @failed _ t v _ gathered =>
    obtain ⟨bytes, rfl⟩ : ∃ bytes, t = s.recorded.stage bytes :=
      (Gathers.of_gatherLoop gathered).session_eq
    exact .inr ⟨v.2, v.1, rfl⟩

/-! ### One operation -/

/-- Only setters and reads tell the device about settings, and reads only about the timeout. -/
theorem set_of_makes {op : Operation} {change : Setting} (h : op.Makes (.set change)) :
    op = .set change ∨ ∃ limit, op = .read limit ∧ ∃ timeout, change = .timeout timeout := by
  cases op with
  | set other =>
    cases h
    exact .inl rfl
  | read limit =>
    rcases h with ⟨timeout, hcall⟩ | ⟨room, hcall⟩ <;> cases hcall
    exact .inr ⟨limit, rfl, timeout, rfl⟩
  | _ => simp [Operation.Makes] at h

/-- An operation that is neither a setter of the device nor a read changes at most settings that
are not on the device. -/
theorem settings_of_ne (s : Session World) (w : World) {op : Operation}
    (hset : ∀ change, op ≠ .set change) :
    s.settings.SameLine (s.perform w op).session.settings ∧
      s.settings.timeout = (s.perform w op).session.settings.timeout := by
  rcases s.settings_cases w op with ⟨hrecorded, -⟩ | ⟨hkept, -⟩
  · rw [hrecorded]
    cases op with
    | set change => exact absurd rfl (hset change)
    | _ => exact ⟨⟨rfl, rfl, rfl, rfl, rfl⟩, rfl⟩
  · rw [hkept]
    exact ⟨.refl _, rfl⟩

/-- An operation keeps device and record in step about the line, whatever it comes to. -/
theorem sameLine_perform {s : Session World} {held : LineSettings} (h : held.SameLine s.settings)
    (w : World) (op : Operation) :
    (held.after (s.exchanges w op)).SameLine (s.perform w op).session.settings := by
  by_cases hset : ∃ change, op = .set change
  · obtain ⟨change, rfl⟩ := hset
    rcases s.exchanges_set w change with ⟨hlog, hsettings⟩ | ⟨hlog, hsettings⟩ <;>
      rw [hlog, hsettings]
    · exact h
    · show (held.accept _).SameLine _
      unfold Device.exchange
      rcases (s.device.perform (.set change) w).1 with _ | _
      · exact h
      · exact h.record change
  · rw [not_exists] at hset
    have htimeouts : (held.after (s.exchanges w op)).SameLine held := by
      refine LineSettings.after_sameLine fun x hx change hcall ↦ ?_
      have hmakes : op.Makes (.set change) := hcall ▸ makes_of_mem_exchanges hx
      rcases set_of_makes hmakes with hop | ⟨-, -, hchange⟩
      · exact absurd hop (hset change)
      · exact hchange
    exact (htimeouts.trans h).trans (s.settings_of_ne w hset).1

/-- An operation keeps device and record in step about the timeout, unless the device has rejected
one. A read has told it several, the last of which is the one on record. -/
theorem timeout_perform {s : Session World} {held : LineSettings}
    (h : held.timeout = s.settings.timeout) (w : World) (op : Operation)
    (haccepts : ∀ x ∈ s.exchanges w op, ¬ x.RejectsTimeout) :
    (held.after (s.exchanges w op)).timeout = (s.perform w op).session.settings.timeout := by
  by_cases hset : ∃ change, op = .set change
  · obtain ⟨change, rfl⟩ := hset
    rcases s.exchanges_set w change with ⟨hlog, hsettings⟩ | ⟨hlog, hsettings⟩ <;>
      rw [hlog, hsettings]
    · exact h
    · show (held.accept _).timeout = _
      unfold Device.exchange
      rcases (s.device.perform (.set change) w).1 with _ | _
      · exact h
      · exact LineSettings.timeout_record h change
  · rw [not_exists] at hset
    rw [← (s.settings_of_ne w hset).2]
    by_cases hread : ∃ limit, op = .read limit
    · obtain ⟨limit, rfl⟩ := hread
      rcases s.exchanges_read w limit with hlog | ⟨log, v, hlog⟩
      · rw [hlog]
        exact h
      · have hlast := haccepts (s.device.exchange (.set (.timeout s.settings.timeout)) v)
          (by rw [hlog]; exact List.mem_append_right _ (List.mem_singleton.mpr rfl))
        rw [hlog, LineSettings.after_append]
        show ((held.after log).accept _).timeout = _
        unfold Device.exchange at hlast ⊢
        rcases hanswer : (s.device.perform (.set (.timeout s.settings.timeout)) v).1 with _ | _
        · rw [hanswer] at hlast
          exact absurd trivial hlast
        · rfl
    · rw [LineSettings.after_of_ne, h]
      intro x hx change hcall
      have hmakes : op.Makes (.set change) := hcall ▸ makes_of_mem_exchanges hx
      rcases set_of_makes hmakes with hop | ⟨limit, hop, -⟩
      · exact hset change hop
      · exact hread ⟨limit, hop⟩

/-! ### Histories -/

theorem run_sameLine {s : Session World} {held : LineSettings} (h : held.SameLine s.settings)
    (w : World) (ops : List Operation) :
    (held.after (s.run w ops).exchanges).SameLine (s.run w ops).session.settings := by
  induction ops generalizing s w held with
  | nil => exact h
  | cons op ops ih =>
    rw [run_cons_exchanges, run_cons_session, LineSettings.after_append]
    exact ih (sameLine_perform h w op) _

theorem run_timeout {s : Session World} {held : LineSettings}
    (h : held.timeout = s.settings.timeout) (w : World) (ops : List Operation)
    (haccepts : ∀ x ∈ (s.run w ops).exchanges, ¬ x.RejectsTimeout) :
    (held.after (s.run w ops).exchanges).timeout = (s.run w ops).session.settings.timeout := by
  induction ops generalizing s w held with
  | nil => exact h
  | cons op ops ih =>
    rw [run_cons_exchanges] at haccepts ⊢
    rw [run_cons_session, LineSettings.after_append]
    exact ih (timeout_perform h w op fun x hx ↦ haccepts x (List.mem_append_left _ hx)) _
      fun x hx ↦ haccepts x (List.mem_append_right _ hx)

end Session

end SerialLine
