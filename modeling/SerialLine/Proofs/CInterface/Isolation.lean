import Mathlib.Data.List.Forall2
import SerialLine.Proofs.CInterface.Tasks
/-!
# Ports do not interfere

All ports share one registry and one bench, and callers use them in any order. `Event` is what can
happen: a call on a port, something done to the device in the socket of a port, or time that passes
for everyone. As long as no two ports share a line (`Rig.Separate`), an event on one port is
confined to it (`Rig.confined`), and what it comes to depends on that port alone
(`Rig.happen_same`).

So a port cannot tell what happens on the others. `ports_isolated` compares two runs in which the
same happens on a port, with anything in between: the calls on it return the same values, and at
each of them, as well as at the end, its session, its plug, and the ends of its lines are the same.
The clocks of the ends are not, since the other calls take time, and a read whose deadline the clock
cannot tell does not return. The calls on the port are assumed to be none of these.
-/

set_option autoImplicit false

namespace SerialLine

namespace CInterface

/-- A shared state with a bench behind it. -/
structure Rig where
  state : State Bench
  bench : Bench

/-- What can happen to it. -/
inductive Event
  | call (f : Function) (code : Int)
  | inject (port : Port) (bytes : Bytes)
  | setFaulted (port : Port) (faulted : Bool)
  | setLimit (port : Port) (limit : Option Nat)
  | setUnplugged (port : Port) (unplugged : Bool)
  /-- Time passes at all ends. -/
  | pass (nanos : Nat)

/-- The event is about a port. Calls with other codes are about none. -/
def Event.On (p : Port) : Event → Prop
  | .call _ code => code = p.code
  | .inject q _ | .setFaulted q _ | .setLimit q _ | .setUnplugged q _ => q = p
  | .pass _ => False

instance (p : Port) : DecidablePred (Event.On p)
  | .call _ code => inferInstanceAs (Decidable (code = p.code))
  | .inject q _ | .setFaulted q _ | .setLimit q _ | .setUnplugged q _ =>
    inferInstanceAs (Decidable (q = p))
  | .pass _ => inferInstanceAs (Decidable False)

namespace Rig

/-- What a call returns, if the event is one. -/
def returned (rig : Rig) : Event → Option (Except Halt Return)
  | .call f code => some (rig.state.call rig.bench f code).1
  | _ => none

/-- The rig after an event. Bytes, faults and limits go to the end in the socket of the port. -/
def happen (rig : Rig) : Event → Rig
  | .call f code =>
    let done := rig.state.call rig.bench f code
    ⟨done.2.1, done.2.2⟩
  | .inject p bytes => { rig with bench := rig.bench.inject (rig.bench.socket p) bytes }
  | .setFaulted p faulted => { rig with bench := rig.bench.setFaulted (rig.bench.socket p) faulted }
  | .setLimit p limit => { rig with bench := rig.bench.setLimit (rig.bench.socket p) limit }
  | .setUnplugged p unplugged => { rig with bench := rig.bench.setUnplugged p unplugged }
  | .pass nanos => { rig with bench.ends := fun i ↦ (rig.bench.ends i).later nanos }

/-- An event that has happened. -/
structure Step where
  event : Event
  before : Rig
  returned : Option (Except Halt Return)
  after : Rig

def step (rig : Rig) (e : Event) : Step := ⟨e, rig, rig.returned e, rig.happen e⟩

/-- One event after another. -/
def run (rig : Rig) : List Event → List Step
  | [] => []
  | e :: es => rig.step e :: (rig.happen e).run es

/-- The rig after all events. -/
def after (rig : Rig) (es : List Event) : Rig := es.foldl happen rig

/-! ### Lines in use -/

/-- The session of a port, if there is one. -/
def session (rig : Rig) (p : Port) : Option (Session Bench) :=
  rig.state.registry.bind fun r ↦ r.sessions p

theorem session_of_registry {rig : Rig} {r : Registry Bench} (hr : rig.state.registry = some r)
    (p : Port) : rig.session p = r.sessions p := by
  rw [session, hr]
  rfl

def Uses (rig : Rig) (p : Port) (i : EndId) : Prop := rig.bench.Uses p (rig.session p) i

/-- The end is on a line that a port uses. -/
def Line (rig : Rig) (p : Port) (k : EndId) : Prop := ∃ i, rig.Uses p i ∧ i.On k

/-- A registry that opens ends of the bench is installed, and no two ports share a line. -/
structure Separate (rig : Rig) : Prop where
  installed : ∃ r, rig.state.registry = some r ∧ r.opener = Bench.opener
  held : ∀ {p s}, rig.session p = some s → ∃ i, s.device = Bench.device i
  apart : ∀ {p q k}, p ≠ q → rig.Line p k → ¬ rig.Line q k

/-- So it is when all ports are closed and no two sockets are on one line. -/
theorem Separate.of_closed {rig : Rig} {r : Registry Bench} (hr : rig.state.registry = some r)
    (hopener : r.opener = Bench.opener) (hclosed : ∀ p, r.sessions p = none)
    (hsockets : ∀ {p q k}, p ≠ q → (rig.bench.socket p).On k → ¬ (rig.bench.socket q).On k) :
    rig.Separate := by
  have hsession : ∀ p, rig.session p = none := fun p ↦ by rw [session_of_registry hr, hclosed]
  have hline : ∀ {p k}, rig.Line p k → (rig.bench.socket p).On k := by
    rintro p k ⟨i, rfl | ⟨s, hs, -⟩, hk⟩
    · exact hk
    · rw [hsession] at hs
      cases hs
  refine ⟨⟨r, hr, hopener⟩, fun hs ↦ ?_, fun hne hp hq ↦ hsockets hne (hline hp) (hline hq)⟩
  rw [hsession] at hs
  cases hs

/-- Two rigs are the same as far as a port can tell: its session, its plug and its socket, and the
ends of the lines that it uses but for the time. So is what all ports share and nothing changes: the
defaults for new sessions, and how long reads and writes take. -/
structure SameAt (p : Port) (rig rig' : Rig) : Prop where
  session_eq : rig'.session p = rig.session p
  unplugged_eq : rig'.bench.unplugged p = rig.bench.unplugged p
  socket_eq : rig'.bench.socket p = rig.bench.socket p
  ends_eq : ∀ {k}, rig.Line p k → (rig'.bench.ends k).timeless = (rig.bench.ends k).timeless
  defaults_eq : rig'.state.registry.map (·.defaults) = rig.state.registry.map (·.defaults)
  pace_eq : rig'.bench.pace = rig.bench.pace

theorem SameAt.uses_iff {p : Port} {rig rig' : Rig} (h : SameAt p rig rig') (i : EndId) :
    rig'.Uses p i ↔ rig.Uses p i := by
  unfold Uses Bench.Uses
  rw [h.socket_eq, h.session_eq]

theorem SameAt.line_iff {p : Port} {rig rig' : Rig} (h : SameAt p rig rig') (k : EndId) :
    rig'.Line p k ↔ rig.Line p k :=
  exists_congr fun i ↦ and_congr_left' (h.uses_iff i)

theorem SameAt.refl (p : Port) (rig : Rig) : SameAt p rig rig :=
  ⟨rfl, rfl, rfl, fun _ ↦ rfl, rfl, rfl⟩

theorem SameAt.symm {p : Port} {rig rig' : Rig} (h : SameAt p rig rig') : SameAt p rig' rig :=
  ⟨h.session_eq.symm, h.unplugged_eq.symm, h.socket_eq.symm,
    fun hk ↦ (h.ends_eq ((h.line_iff _).mp hk)).symm, h.defaults_eq.symm, h.pace_eq.symm⟩

theorem SameAt.trans {p : Port} {rig rig' rig'' : Rig} (h : SameAt p rig rig')
    (h' : SameAt p rig' rig'') : SameAt p rig rig'' :=
  ⟨h'.session_eq.trans h.session_eq, h'.unplugged_eq.trans h.unplugged_eq,
    h'.socket_eq.trans h.socket_eq,
    fun hk ↦ (h'.ends_eq ((h.line_iff _).mpr hk)).trans (h.ends_eq hk),
    h'.defaults_eq.trans h.defaults_eq, h'.pace_eq.trans h.pace_eq⟩

end Rig

/-! ### Calls -/

/-- What a call returns once its task has come to something. -/
def Function.report (f : Function) : Outcome (Nat × Bytes) → Except Halt Return
  | .ok (n, bytes) => .ok ⟨0, n, f.bufferAfter bytes⟩
  | .error e => .ok ⟨e.kind.status, 0, f.bufferAfter []⟩
  | .halt reason => .error reason

/-- A call is turned away, whatever the state, or does its task on the port of its code. -/
theorem call_installed (f : Function) (code : Int) :
    (∃ answer, ∀ (p : State Bench) (b : Bench) r, p.registry = some r →
        p.call b f code = (answer, p, b)) ∨
      ∃ port : Port, (port.code : Int) = code ∧
        ∀ (p : State Bench) (b : Bench) r, p.registry = some r → p.call b f code =
          (f.report (State.perform r port f.task b).outcome,
            { p with registry := some (State.perform r port f.task b).registry },
            (State.perform r port f.task b).world) := by
  rcases f.check_cases with ⟨-, reason, hcheck⟩ | ⟨-, hcheck⟩
  · refine .inl ⟨.ok ⟨(SerialError.invalidArgument reason).kind.status, 0, f.bufferAfter []⟩,
      fun p b r hr ↦ ?_⟩
    simp only [State.call, State.answer, hcheck]
  · rcases Port.ofCode_cases code with ⟨-, port, hcode, hport⟩ | ⟨-, hport⟩
    · refine .inr ⟨port, hcode, fun p b r hr ↦ ?_⟩
      simp only [State.call, State.answer, hcheck, hport, State.withRegistry, State.ready, hr]
      rcases State.perform r port f.task b with ⟨_ | _ | _, r', b'⟩ <;> rfl
    · refine .inl ⟨.ok ⟨(SerialError.invalidPort code).kind.status, 0, f.bufferAfter []⟩,
        fun p b r hr ↦ ?_⟩
      simp only [State.call, State.answer, hcheck, hport]

namespace Rig

/-! ### Events on a port -/

/-- An event on a port changes nothing else: not the sessions and plugs of the other ports, and no
ends but those of the lines that the port uses. Nor does the port come to use other lines. -/
structure Confined (p : Port) (rig rig' : Rig) : Prop where
  registry_eq : ∃ r r', rig.state.registry = some r ∧ rig'.state.registry = some r' ∧
    r'.opener = r.opener ∧ r'.defaults = r.defaults ∧
      ∀ q, q ≠ p → r'.sessions q = r.sessions q
  unplugged_eq : ∀ q, q ≠ p → rig'.bench.unplugged q = rig.bench.unplugged q
  socket_eq : rig'.bench.socket = rig.bench.socket
  pace_eq : rig'.bench.pace = rig.bench.pace
  ends_eq : ∀ {k}, ¬ rig.Line p k → rig'.bench.ends k = rig.bench.ends k
  held : ∀ {s}, rig'.session p = some s → ∃ i, rig.Uses p i ∧ s.device = Bench.device i

variable {p : Port} {rig rig' : Rig}

/-- What a task on the port depends on is the same in both rigs. -/
theorem SameAt.sources (h : SameAt p rig rig') (hrig : rig.Separate) {r r' : Registry Bench}
    (hr : rig.state.registry = some r) (hr' : rig'.state.registry = some r')
    (hopener' : r'.opener = Bench.opener) : Sources p r r' rig.bench rig'.bench where
  opener_eq := by
    obtain ⟨r₀, hr₀, hopener⟩ := hrig.installed
    rw [hr] at hr₀
    exact Option.some.inj hr₀ ▸ hopener
  opener_eq' := hopener'
  defaults_eq := by
    have hdefaults := h.defaults_eq
    rw [hr, hr'] at hdefaults
    exact Option.some.inj hdefaults
  sessions_eq := by rw [← session_of_registry hr, ← session_of_registry hr', h.session_eq]
  unplugged_eq := h.unplugged_eq
  socket_eq := h.socket_eq
  held hs := hrig.held (by rwa [session_of_registry hr])
  alike {i} hi := by
    have huses : rig.Uses p i := by rwa [Uses, session_of_registry hr]
    exact ⟨h.ends_eq ⟨i, huses, .inl rfl⟩, h.ends_eq ⟨i, huses, .inr rfl⟩, h.pace_eq⟩

/-- A task that comes to the same in two rigs leaves them the same as far as the port can tell. -/
theorem SameAt.of_task (h : SameAt p rig rig') {i : EndId} (hi : rig.Uses p i)
    {done done' : Registry.Result Bench (Nat × Bytes)}
    (htask : TaskSame p i rig.bench rig'.bench done done')
    (hdefaults : done'.registry.defaults = done.registry.defaults) :
    SameAt p ⟨{ rig.state with registry := some done.registry }, done.world⟩
      ⟨{ rig'.state with registry := some done'.registry }, done'.world⟩ where
  session_eq := htask.sessions_eq
  unplugged_eq := by
    show done'.world.unplugged p = done.world.unplugged p
    rw [htask.touches.unplugged_eq, htask.touches'.unplugged_eq, h.unplugged_eq]
  socket_eq := by
    show done'.world.socket p = done.world.socket p
    rw [htask.touches.socket_eq, htask.touches'.socket_eq, h.socket_eq]
  ends_eq {k} := by
    rintro ⟨j, huses, hk⟩
    show (done'.world.ends k).timeless = (done.world.ends k).timeless
    by_cases hik : i.On k
    · rcases hik with rfl | rfl
      · exact htask.alike.near_eq
      · exact htask.alike.far_eq
    · rw [htask.touches.ends_eq hik, htask.touches'.ends_eq hik]
      refine h.ends_eq ⟨j, ?_, hk⟩
      rcases huses with hsocket | ⟨s, hs, hdevice⟩
      · refine .inl (hsocket.trans ?_)
        show done.world.socket p = _
        rw [htask.touches.socket_eq]
      · obtain rfl := Bench.device_injective ((htask.device_eq hs).symm.trans hdevice)
        exact hi
  defaults_eq := congrArg some hdefaults
  pace_eq := htask.alike.pace_eq

/-- So does the same change of the end in the socket, if the time does not matter for it. -/
theorem SameAt.modify (h : SameAt p rig rig') (change : End → End)
    (hchange : ∀ e, (change e).timeless = change e.timeless) :
    SameAt p { rig with bench := rig.bench.modify (rig.bench.socket p) change }
      { rig' with bench := rig'.bench.modify (rig'.bench.socket p) change } where
  session_eq := h.session_eq
  unplugged_eq := h.unplugged_eq
  socket_eq := h.socket_eq
  ends_eq {k} hk := by
    have hends : (rig'.bench.ends k).timeless = (rig.bench.ends k).timeless := h.ends_eq hk
    show ((rig'.bench.modify (rig'.bench.socket p) change).ends k).timeless =
      ((rig.bench.modify (rig.bench.socket p) change).ends k).timeless
    rw [h.socket_eq]
    by_cases hsocket : k = rig.bench.socket p
    · rw [hsocket] at hends ⊢
      rw [Bench.modify_ends_self, Bench.modify_ends_self, hchange, hchange, hends]
    · rwa [Bench.modify_ends_of_ne _ _ hsocket, Bench.modify_ends_of_ne _ _ hsocket]
  defaults_eq := h.defaults_eq
  pace_eq := h.pace_eq

/-- An event on a port comes to the same in two rigs that are the same as far as the port can tell,
unless it is a read whose deadline the clock cannot tell. -/
theorem happen_same (hrig : rig.Separate) (hrig' : rig'.Separate) (h : SameAt p rig rig')
    {e : Event} (he : e.On p) (hreturns : rig.returned e ≠ some (.error .deadlineOverflow))
    (hreturns' : rig'.returned e ≠ some (.error .deadlineOverflow)) :
    rig'.returned e = rig.returned e ∧ SameAt p (rig.happen e) (rig'.happen e) := by
  cases e with
  | call f code =>
    obtain ⟨r, hr, -⟩ := hrig.installed
    obtain ⟨r', hr', hopener'⟩ := hrig'.installed
    obtain rfl : code = p.code := he
    unfold returned at hreturns hreturns' ⊢
    unfold happen
    rcases call_installed f p.code with ⟨answer, hrefused⟩ | ⟨port, hport, hcall⟩
    · simp only [hrefused _ _ _ hr, hrefused _ _ _ hr']
      exact ⟨trivial, h⟩
    · obtain rfl := Port.eq_of_code_eq hport
      simp only [hcall _ _ _ hr] at hreturns ⊢
      simp only [hcall _ _ _ hr'] at hreturns' ⊢
      have hsources := h.sources hrig hr hr' hopener'
      obtain ⟨i, hi, htask⟩ := hsources.perform <| hsources.tellsAlike
        (fun houtcome ↦ hreturns (by rw [houtcome]; rfl))
        (fun houtcome ↦ hreturns' (by rw [houtcome]; rfl))
      refine ⟨by rw [htask.outcome_eq], h.of_task ?_ htask ?_⟩
      · rwa [Uses, session_of_registry hr]
      · rw [(registry_of_perform r' port f.task _).2.1, (registry_of_perform r port f.task _).2.1,
          hsources.defaults_eq]
  | inject q bytes =>
    obtain rfl : q = p := he
    exact ⟨rfl, h.modify (fun e ↦ { e with input := e.input ++ bytes }) fun _ ↦ rfl⟩
  | setFaulted q faulted =>
    obtain rfl : q = p := he
    exact ⟨rfl, h.modify (fun e ↦ { e with faulted }) fun _ ↦ rfl⟩
  | setLimit q limit =>
    obtain rfl : q = p := he
    exact ⟨rfl, h.modify
      (fun e ↦ { e with budget := limit.filter (· < UInt64.size - 1) }) fun _ ↦ rfl⟩
  | setUnplugged q unplugged =>
    obtain rfl : q = p := he
    exact ⟨rfl, h.session_eq, by simp [happen, Bench.setUnplugged], h.socket_eq,
      fun hk ↦ h.ends_eq hk, h.defaults_eq, h.pace_eq⟩
  | pass nanos => exact absurd he id

/-! ### Events elsewhere -/

theorem Confined.refl (hrig : rig.Separate) (p : Port) : Confined p rig rig := by
  obtain ⟨r, hr, -⟩ := hrig.installed
  refine ⟨⟨r, r, hr, hr, rfl, rfl, fun _ _ ↦ rfl⟩, fun _ _ ↦ rfl, rfl, rfl, fun _ ↦ rfl, ?_⟩
  intro s hs
  obtain ⟨i, hdevice⟩ := hrig.held hs
  exact ⟨i, .inr ⟨s, hs, hdevice⟩, hdevice⟩

/-- A change of the end in the socket of a port is confined to the port. -/
theorem Confined.modify (hrig : rig.Separate) (p : Port) (change : End → End) :
    Confined p rig { rig with bench := rig.bench.modify (rig.bench.socket p) change } :=
  { Confined.refl hrig p with
    unplugged_eq := fun _ _ ↦ rfl
    socket_eq := rfl
    pace_eq := rfl
    ends_eq := fun hk ↦ Bench.modify_ends_of_ne _ _ fun hsocket ↦ hk ⟨_, .inl rfl, .inl hsocket⟩ }

/-- An event on a port is confined to it. -/
theorem confined (hrig : rig.Separate) {e : Event} (he : e.On p) :
    Confined p rig (rig.happen e) := by
  cases e with
  | call f code =>
    obtain ⟨r, hr, hopener⟩ := hrig.installed
    obtain rfl : code = p.code := he
    unfold happen
    rcases call_installed f p.code with ⟨answer, hrefused⟩ | ⟨port, hport, hcall⟩
    · simp only [hrefused _ _ _ hr]
      exact .refl hrig p
    · obtain rfl := Port.eq_of_code_eq hport
      simp only [hcall _ _ _ hr]
      have hsources := (SameAt.refl port rig).sources hrig hr hr hopener
      obtain ⟨i, hi, htask⟩ := hsources.perform fun _ _ _ _ _ ↦ .rfl
      have huses : rig.Uses port i := by rwa [Uses, session_of_registry hr]
      exact {
        registry_eq := ⟨r, _, hr, rfl, registry_of_perform r port f.task _⟩
        unplugged_eq := fun _ _ ↦ congrFun htask.touches.unplugged_eq _
        socket_eq := htask.touches.socket_eq
        pace_eq := htask.touches.pace_eq
        ends_eq := fun hk ↦ htask.touches.ends_eq fun hik ↦ hk ⟨i, huses, hik⟩
        held := fun hs ↦ ⟨i, huses, htask.device_eq hs⟩ }
  | inject q bytes =>
    obtain rfl : q = p := he
    exact .modify hrig q _
  | setFaulted q faulted =>
    obtain rfl : q = p := he
    exact .modify hrig q _
  | setLimit q limit =>
    obtain rfl : q = p := he
    exact .modify hrig q _
  | setUnplugged q unplugged =>
    obtain rfl : q = p := he
    exact { Confined.refl hrig q with unplugged_eq := fun _ hne ↦ if_neg hne }
  | pass nanos => exact absurd he id

namespace Confined

variable {q : Port} (h : Confined p rig rig')
include h

theorem session_eq (hq : q ≠ p) : rig'.session q = rig.session q := by
  obtain ⟨r, r', hr, hr', -, -, hsessions⟩ := h.registry_eq
  rw [session_of_registry hr, session_of_registry hr', hsessions q hq]

/-- Nobody comes to use another line. -/
theorem line {k : EndId} (hk : rig'.Line q k) : rig.Line q k := by
  obtain ⟨i, hsocket | ⟨s, hs, hdevice⟩, hik⟩ := hk
  · exact ⟨i, .inl (hsocket.trans (congrFun h.socket_eq q)), hik⟩
  · by_cases hq : q = p
    · obtain rfl := hq
      obtain ⟨j, huses, hj⟩ := h.held hs
      obtain rfl := Bench.device_injective (hj.symm.trans hdevice)
      exact ⟨j, huses, hik⟩
    · exact ⟨i, .inr ⟨s, h.session_eq hq ▸ hs, hdevice⟩, hik⟩

theorem separate (hrig : rig.Separate) : rig'.Separate where
  installed := by
    obtain ⟨r, r', hr, hr', hopener, -, -⟩ := h.registry_eq
    obtain ⟨r₀, hr₀, hopener₀⟩ := hrig.installed
    rw [hr] at hr₀
    exact ⟨r', hr', hopener.trans (Option.some.inj hr₀ ▸ hopener₀)⟩
  held {q s} hs := by
    by_cases hq : q = p
    · obtain rfl := hq
      obtain ⟨i, -, hdevice⟩ := h.held hs
      exact ⟨i, hdevice⟩
    · exact hrig.held (h.session_eq hq ▸ hs)
  apart hne hp hq := hrig.apart hne (h.line hp) (h.line hq)

/-- The other ports cannot tell. -/
theorem sameAt (hrig : rig.Separate) (hq : q ≠ p) : SameAt q rig rig' where
  session_eq := h.session_eq hq
  unplugged_eq := h.unplugged_eq q hq
  socket_eq := congrFun h.socket_eq q
  ends_eq hk := congrArg End.timeless (h.ends_eq fun hpk ↦ hrig.apart hq hk hpk)
  defaults_eq := by
    obtain ⟨r, r', hr, hr', -, hdefaults, -⟩ := h.registry_eq
    rw [hr, hr']
    exact congrArg some hdefaults
  pace_eq := h.pace_eq

end Confined

/-- An event on no port lets time pass, or is a call that is turned away. -/
theorem happen_of_quiet (hrig : rig.Separate) {e : Event} (he : ∀ q : Port, ¬ e.On q) :
    (∃ nanos, e = .pass nanos) ∨ rig.happen e = rig := by
  cases e with
  | call f code =>
    obtain ⟨r, hr, -⟩ := hrig.installed
    refine .inr ?_
    rcases call_installed f code with ⟨answer, hrefused⟩ | ⟨port, hport, -⟩
    · simp only [happen, hrefused _ _ _ hr]
    · exact absurd hport.symm (he port)
  | inject q _ | setFaulted q _ | setLimit q _ | setUnplugged q _ => exact absurd rfl (he q)
  | pass nanos => exact .inl ⟨nanos, rfl⟩

/-- An event that is not on a port keeps the lines apart, and the port cannot tell. -/
theorem happen_elsewhere (hrig : rig.Separate) {e : Event} (he : ¬ e.On p) :
    (rig.happen e).Separate ∧ SameAt p rig (rig.happen e) := by
  by_cases hsome : ∃ q : Port, e.On q
  · obtain ⟨q, hq⟩ := hsome
    have hconfined := confined hrig hq
    exact ⟨hconfined.separate hrig, hconfined.sameAt hrig fun hpq ↦ he (hpq ▸ hq)⟩
  · rcases happen_of_quiet hrig (not_exists.mp hsome) with ⟨nanos, rfl⟩ | hsame
    · exact ⟨⟨hrig.installed, hrig.held, hrig.apart⟩, rfl, rfl, rfl, fun _ ↦ rfl, rfl, rfl⟩
    · rw [hsame]
      exact ⟨hrig, .refl p rig⟩

/-! ### Runs -/

/-- The events of a run that are on a port. -/
def stepsOn (rig : Rig) (p : Port) (es : List Event) : List Step :=
  (rig.run es).filter fun x ↦ x.event.On p

/-- The same event, as far as its port can tell. -/
structure Step.SameAt (p : Port) (x y : Step) : Prop where
  event_eq : y.event = x.event
  returned_eq : y.returned = x.returned
  before : x.before.SameAt p y.before
  after : x.after.SameAt p y.after

theorem stepsOn_append (rig : Rig) (p : Port) (es es' : List Event) :
    rig.stepsOn p (es ++ es') = rig.stepsOn p es ++ (rig.after es).stepsOn p es' := by
  have hrun : rig.run (es ++ es') = rig.run es ++ (rig.after es).run es' := by
    induction es generalizing rig with
    | nil => rfl
    | cons e es ih => exact congrArg (rig.step e :: ·) (ih (rig.happen e))
  rw [stepsOn, hrun, List.filter_append]
  rfl

theorem stepsOn_cons (rig : Rig) {e : Event} (he : e.On p) (es : List Event) :
    rig.stepsOn p (e :: es) = rig.step e :: (rig.happen e).stepsOn p es :=
  List.filter_cons_of_pos (p := fun x : Step ↦ x.event.On p) (a := rig.step e) (decide_eq_true he)

theorem stepsOn_cons_of_not (rig : Rig) {e : Event} (he : ¬ e.On p) (es : List Event) :
    rig.stepsOn p (e :: es) = (rig.happen e).stepsOn p es :=
  List.filter_cons_of_neg (p := fun x : Step ↦ x.event.On p) (a := rig.step e)
    fun hon ↦ he (of_decide_eq_true hon)

/-- Nothing that happens elsewhere can be told at a port. By induction on the events. -/
theorem run_elsewhere {es : List Event} (hrig : rig.Separate) (hes : ∀ e ∈ es, ¬ e.On p) :
    (rig.after es).Separate ∧ SameAt p rig (rig.after es) ∧ rig.stepsOn p es = [] := by
  induction es generalizing rig with
  | nil => exact ⟨hrig, .refl p rig, rfl⟩
  | cons e es ih =>
    have he : ¬ e.On p := hes e List.mem_cons_self
    obtain ⟨hnext, hsame⟩ := happen_elsewhere hrig he
    obtain ⟨hlast, hrest, hsteps⟩ := ih hnext fun e' he' ↦ hes e' (List.mem_cons_of_mem e he')
    refine ⟨hlast, hsame.trans hrest, ?_⟩
    rwa [stepsOn_cons_of_not _ he]

/-- Two runs from rigs that are the same as far as a port can tell, in which the same happens on the
port. The induction is on what happens there; in between, both runs go their own ways. -/
theorem run_same (hrig : rig.Separate) (hrig' : rig'.Separate) (h : SameAt p rig rig')
    {es es' : List Event} (hes : es'.filter (·.On p) = es.filter (·.On p))
    (hreturns : ∀ x ∈ rig.stepsOn p es, x.returned ≠ some (.error .deadlineOverflow))
    (hreturns' : ∀ x ∈ rig'.stepsOn p es', x.returned ≠ some (.error .deadlineOverflow)) :
    List.Forall₂ (Step.SameAt p) (rig.stepsOn p es) (rig'.stepsOn p es') ∧
      SameAt p (rig.after es) (rig'.after es') := by
  generalize hon : es.filter (·.On p) = on at hes
  induction on generalizing rig rig' es es' with
  | nil =>
    obtain ⟨-, hsame, hsteps⟩ := run_elsewhere hrig (by simpa using List.filter_eq_nil_iff.mp hon)
    obtain ⟨-, hsame', hsteps'⟩ :=
      run_elsewhere hrig' (by simpa using List.filter_eq_nil_iff.mp hes)
    rw [hsteps, hsteps']
    exact ⟨.nil, (hsame.symm.trans h).trans hsame'⟩
  | cons e on ih =>
    obtain ⟨before, later, rfl, hbefore, he, hlater⟩ := List.filter_eq_cons_iff.mp hon
    obtain ⟨before', later', rfl, hbefore', -, hlater'⟩ := List.filter_eq_cons_iff.mp hes
    replace he : e.On p := by simpa using he
    obtain ⟨hnext, hsame, hsteps⟩ := run_elsewhere hrig (by simpa using hbefore)
    obtain ⟨hnext', hsame', hsteps'⟩ := run_elsewhere hrig' (by simpa using hbefore')
    have hmet : SameAt p (rig.after before) (rig'.after before') :=
      (hsame.symm.trans h).trans hsame'
    rw [stepsOn_append, hsteps, List.nil_append, stepsOn_cons _ he] at hreturns ⊢
    rw [stepsOn_append, hsteps', List.nil_append, stepsOn_cons _ he] at hreturns' ⊢
    obtain ⟨hreturned, hhappened⟩ := happen_same hnext hnext' hmet he
      (hreturns _ List.mem_cons_self) (hreturns' _ List.mem_cons_self)
    obtain ⟨hrest, hlast⟩ := ih (confined hnext he |>.separate hnext)
      (confined hnext' he |>.separate hnext') hhappened
      (fun x hx ↦ hreturns x (List.mem_cons_of_mem _ hx))
      (fun x hx ↦ hreturns' x (List.mem_cons_of_mem _ hx)) hlater hlater'
    refine ⟨.cons ⟨rfl, hreturned, hmet, hhappened⟩ hrest, ?_⟩
    simpa only [after, List.foldl_append, List.foldl_cons] using hlast

/-- Ports do not interfere: two runs of a rig in which the same happens on a port come to the same
on it, whatever happens on the others in between. -/
theorem ports_isolated {rig : Rig} (hrig : rig.Separate) (p : Port) {es es' : List Event}
    (hes : es'.filter (·.On p) = es.filter (·.On p))
    (hreturns : ∀ x ∈ rig.stepsOn p es, x.returned ≠ some (.error .deadlineOverflow))
    (hreturns' : ∀ x ∈ rig.stepsOn p es', x.returned ≠ some (.error .deadlineOverflow)) :
    List.Forall₂ (Step.SameAt p) (rig.stepsOn p es) (rig.stepsOn p es') ∧
      SameAt p (rig.after es) (rig.after es') :=
  run_same hrig hrig (.refl p rig) hes hreturns hreturns'

/-- Ports of their own: what is opened, written, broken and closed on the others does not change
what is read here. -/
theorem ports_isolated_onboard :
    let rig : Rig :=
      ⟨{ registry := some { opener := Bench.opener }, host := Host.without none }, {}⟩
    let here : List Event :=
      [.call .openPort 0, .inject .onboard [97, 98], .call (.read (some [0, 0]) 2) 0]
    let mixed : List Event :=
      [.call .openPort 1, .call (.write (some [7]) 1) 1, .call .openPort 0, .setFaulted .mxp true,
        .call .flush 1, .inject .onboard [97, 98], .pass 5, .call .close 3, .call .openPort 4,
        .call (.read (some [0, 0]) 2) 0]
    (rig.stepsOn .onboard mixed).map (·.returned) =
        [some (.ok ⟨0, 0, none⟩), none, some (.ok ⟨0, 2, some [97, 98]⟩)] ∧
      List.Forall₂ (Step.SameAt .onboard) (rig.stepsOn .onboard here)
        (rig.stepsOn .onboard mixed) ∧
      SameAt .onboard (rig.after here) (rig.after mixed) := by
  intro rig here mixed
  have hrig : rig.Separate := by
    refine .of_closed rfl rfl (fun _ ↦ rfl) fun {p q k} hne hp hq ↦ hne ?_
    obtain rfl : k = .own p := by rcases hp with hp | hp <;> exact hp
    rcases hq with hq | hq <;> exact EndId.own.inj hq
  have hreturns : ∀ {es : List Event}, (rig.stepsOn .onboard es).map (·.returned) =
      [some (.ok ⟨0, 0, none⟩), none, some (.ok ⟨0, 2, some [97, 98]⟩)] →
      ∀ x ∈ rig.stepsOn .onboard es, x.returned ≠ some (.error .deadlineOverflow) := by
    intro es hvalues x hx hoverflow
    have hvalue : x.returned ∈ (rig.stepsOn .onboard es).map (·.returned) := List.mem_map_of_mem hx
    rw [hvalues, hoverflow] at hvalue
    simp at hvalue
  have hmixed : (rig.stepsOn .onboard mixed).map (·.returned) =
      [some (.ok ⟨0, 0, none⟩), none, some (.ok ⟨0, 2, some [97, 98]⟩)] := by decide +kernel
  exact ⟨hmixed, ports_isolated hrig .onboard rfl (hreturns (by decide +kernel)) (hreturns hmixed)⟩

end Rig

end CInterface

end SerialLine
