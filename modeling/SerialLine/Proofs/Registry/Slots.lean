import SerialLine.Proofs.Session.History
import SerialLine.Proofs.Session.Progress
import SerialLine.Registry
/-!
# The sessions in a registry

A registry has one place for the session of each port. Opening a port puts a new session into an
empty place, closing it empties the place, and an operation replaces one session by what it has
left behind. `openPort_cases`, `close_of_open` and `onSession_of_open` say all that can happen, and
`closeEach_spec` follows from these by induction on the ports that are closed.

`Registry.Ensures` is a property that all sessions of a registry have and that every session it may
open has from the start. It lasts, whatever is opened and closed, as long as the operations that are
performed keep it.
-/

set_option autoImplicit false

namespace SerialLine

variable {World : Type}

/-- Every device that the opener hands out has a property. -/
def Opener.Supplies (opener : Opener World) (property : Device World → Prop) : Prop :=
  ∀ {p settings w device w'}, opener.openPort p settings w = (.ok device, w') → property device

/-- A host on which no path leads to a device supplies none. -/
theorem Host.without_supplies (enumerated : Option (List EnumeratedPort)) (paths : DevicePaths)
    {property : Device World → Prop} :
    ((Host.without enumerated).opener paths).Supplies property := by
  intro p settings w device w' hopened
  simp only [opener, openDevice, without] at hopened
  split at hopened
  · simp at hopened
  · split at hopened
    · next hdevice =>
      split at hdevice <;> simp [Except.map] at hdevice
    · simp at hopened

namespace Session

/-- Closing makes no error known: what cannot be sent is dropped. -/
theorem close_ne_error (s : Session World) (w : World) (e : SerialError) :
    (s.close w).outcome ≠ .error e := by
  unfold close
  cases s.pending with
  | nil => simp
  | cons b bs =>
    simp only
    rcases s.flush w with ⟨_ | _ | _, t, w'⟩ <;> simp

/-- Over a device that keeps to its patience, closing comes to an end. -/
theorem close_eq_ok {s : Session World} (h : s.device.Patient) (w : World) :
    (s.close w).outcome = .ok () := by
  have hflushed := flush_ne_halt h w
  unfold close
  cases s.pending with
  | nil => rfl
  | cons b bs =>
    simp only
    rcases hflush : s.flush w with ⟨_ | _ | reason, t, w'⟩
    · rfl
    · rfl
    · rw [hflush] at hflushed
      exact absurd rfl (hflushed reason)

end Session

namespace Registry

/-! ### One place -/

theorem isOpen_iff {r : Registry World} {p : Port} : r.IsOpen p ↔ ∃ s, r.sessions p = some s :=
  Option.isSome_iff_exists

theorem not_isOpen_iff {r : Registry World} {p : Port} : ¬ r.IsOpen p ↔ r.sessions p = none := by
  unfold IsOpen
  rw [Bool.not_eq_true, Option.isSome_eq_false_iff, Option.isNone_iff_eq_none]

@[simp] theorem put_sessions_self (r : Registry World) (p : Port) (s : Option (Session World)) :
    (r.put p s).sessions p = s := if_pos rfl

theorem put_sessions_of_ne (r : Registry World) {p q : Port} (s : Option (Session World))
    (h : q ≠ p) : (r.put p s).sessions q = r.sessions q := if_neg h

/-- To put a session where it is changes nothing. -/
theorem put_self (r : Registry World) {p : Port} {place : Option (Session World)}
    (h : r.sessions p = place) : r.put p place = r := by
  have hsessions : (r.put p place).sessions = r.sessions := by
    funext q
    by_cases hq : q = p
    · rw [hq, put_sessions_self, h]
    · exact r.put_sessions_of_ne place hq
  exact congrArg (fun sessions ↦ { r with sessions }) hsessions

theorem isOpen_put_some (r : Registry World) (p q : Port) (s : Session World) :
    (r.put p (some s)).IsOpen q ↔ q = p ∨ r.IsOpen q := by
  by_cases h : q = p
  · subst h
    simp [IsOpen]
  · simp [IsOpen, put_sessions_of_ne r _ h, h]

theorem isOpen_put_none (r : Registry World) (p q : Port) :
    (r.put p none).IsOpen q ↔ q ≠ p ∧ r.IsOpen q := by
  by_cases h : q = p
  · subst h
    simp [IsOpen]
  · simp [IsOpen, put_sessions_of_ne r _ h, h]

theorem mem_openPorts (r : Registry World) (p : Port) : p ∈ r.openPorts ↔ r.IsOpen p := by
  simp [openPorts, Port.mem_all]

/-- The open ports are listed in the order of their codes, each of them once. -/
theorem openPorts_pairwise (r : Registry World) :
    r.openPorts.Pairwise fun p q ↦ p.code < q.code := by
  have hall : Port.all.Pairwise fun p q ↦ p.code < q.code := by decide
  exact hall.filter _

/-! ### Opening and closing -/

/-- Everything that opening a port can come to. -/
theorem openPort_cases (r : Registry World) (p : Port) (w : World) :
    (r.IsOpen p ∧ r.openPort p w = ⟨.error (.alreadyOpen p), r, w⟩) ∨
    (¬ r.IsOpen p ∧ ∃ reason, r.defaults.validate = .error reason ∧
      r.openPort p w = ⟨.error (.invalidArgument reason), r, w⟩) ∨
    (¬ r.IsOpen p ∧ r.defaults.validate = .ok () ∧ ∃ e w',
      r.opener.openPort p r.defaults w = (.error e, w') ∧
      r.openPort p w = ⟨.error (unavailable p e), r, w'⟩) ∨
    (¬ r.IsOpen p ∧ r.defaults.validate = .ok () ∧ ∃ device w',
      r.opener.openPort p r.defaults w = (.ok device, w') ∧
      r.openPort p w = ⟨.ok { port := p, device, settings := r.defaults },
        r.put p (some { port := p, device, settings := r.defaults }), w'⟩) := by
  unfold openPort
  cases hs : r.sessions p with
  | some s => exact .inl ⟨isOpen_iff.mpr ⟨s, hs⟩, rfl⟩
  | none =>
    have hclosed := not_isOpen_iff.mpr hs
    cases hvalid : r.defaults.validate with
    | error reason => exact .inr (.inl ⟨hclosed, reason, rfl, rfl⟩)
    | ok _ =>
      rcases hopened : r.opener.openPort p r.defaults w with ⟨e | device, w'⟩
      · exact .inr (.inr (.inl ⟨hclosed, rfl, e, w', rfl, rfl⟩))
      · exact .inr (.inr (.inr ⟨hclosed, rfl, device, w', rfl, rfl⟩))

/-- Whatever the opener has reported, the device counts as unavailable. -/
theorem kind_unavailable (p : Port) (e : SerialError) :
    (unavailable p e).kind = .deviceUnavailable := by
  cases e <;> rfl

theorem close_of_closed {r : Registry World} {p : Port} (h : ¬ r.IsOpen p) (w : World) :
    r.close p w = ⟨.error (.notOpen p), r, w⟩ := by
  simp only [close, not_isOpen_iff.mp h]

theorem close_of_open {r : Registry World} {p : Port} {s : Session World}
    (h : r.sessions p = some s) (w : World) :
    r.close p w = ⟨(s.close w).outcome, r.put p none, (s.close w).world⟩ := by
  simp only [close, h]

/-- Closing a port leaves its place empty and every other one alone. -/
theorem close_sessions (r : Registry World) (p : Port) (w : World) :
    (r.close p w).registry = r.put p none ∨
      ¬ r.IsOpen p ∧ r.close p w = ⟨.error (.notOpen p), r, w⟩ := by
  by_cases hopen : r.IsOpen p
  · obtain ⟨s, hs⟩ := isOpen_iff.mp hopen
    exact .inl (by rw [close_of_open hs])
  · exact .inr ⟨hopen, close_of_closed hopen w⟩

theorem isOpen_close (r : Registry World) (p q : Port) (w : World) :
    (r.close p w).registry.IsOpen q ↔ q ≠ p ∧ r.IsOpen q := by
  rcases r.close_sessions p w with hput | ⟨hclosed, hclose⟩
  · rw [hput, isOpen_put_none]
  · rw [hclose]
    refine ⟨fun hopen ↦ ⟨fun hsame ↦ hclosed (hsame ▸ hopen), hopen⟩, And.right⟩

/-- Closing a port halts only when its device keeps it busy. -/
theorem close_eq_ok {r : Registry World} {p : Port} {s : Session World}
    (hs : r.sessions p = some s) (hdevice : s.device.Patient) (w : World) :
    (r.close p w).outcome = .ok () := by
  rw [close_of_open hs]
  exact Session.close_eq_ok hdevice w

/-! ### Operations on one session -/

section OnSession

variable {α : Type} {r : Registry World} {p : Port}
  (f : Session World → World → Session.Result World α)

theorem onSession_of_closed (h : ¬ r.IsOpen p) (w : World) :
    r.onSession p w f = ⟨.error (.notOpen p), r, w⟩ := by
  simp only [onSession, not_isOpen_iff.mp h]

theorem onSession_of_open {s : Session World} (h : r.sessions p = some s) (w : World) :
    r.onSession p w f =
      ⟨(f s w).outcome, r.put p (some (f s w).session), (f s w).world⟩ := by
  simp only [onSession, h]

/-- Whatever is done with a session, the same ports are open afterwards. -/
theorem isOpen_onSession (w : World) (q : Port) :
    (r.onSession p w f).registry.IsOpen q ↔ r.IsOpen q := by
  by_cases hopen : r.IsOpen p
  · obtain ⟨s, hs⟩ := isOpen_iff.mp hopen
    rw [onSession_of_open f hs, isOpen_put_some]
    refine ⟨fun h ↦ ?_, .inr⟩
    rcases h with rfl | h
    · exact hopen
    · exact h
  · rw [onSession_of_closed f hopen]

/-- The sessions of the other ports are left alone. -/
theorem onSession_sessions_of_ne (w : World) {q : Port} (h : q ≠ p) :
    (r.onSession p w f).registry.sessions q = r.sessions q := by
  by_cases hopen : r.IsOpen p
  · obtain ⟨s, hs⟩ := isOpen_iff.mp hopen
    rw [onSession_of_open f hs]
    exact r.put_sessions_of_ne _ h
  · rw [onSession_of_closed f hopen]

end OnSession

/-! ### What all sessions have in common -/

/-- Every session has a property, and so does every session that may be opened. -/
structure Ensures (property : Session World → Prop) (r : Registry World) : Prop where
  held : ∀ {p s}, r.sessions p = some s → property s
  new : r.defaults.validate = .ok () → ∀ {p w device w'},
    r.opener.openPort p r.defaults w = (.ok device, w') →
      property { port := p, device, settings := r.defaults }

namespace Ensures

variable {property : Session World → Prop} {r : Registry World}

theorem put (h : r.Ensures property) (p : Port) {place : Option (Session World)}
    (hplace : ∀ s, place = some s → property s) : (r.put p place).Ensures property where
  held := by
    intro q s hs
    by_cases hq : q = p
    · rw [hq, put_sessions_self] at hs
      exact hplace s hs
    · rw [put_sessions_of_ne r _ hq] at hs
      exact h.held hs
  new := h.new

theorem openPort (h : r.Ensures property) (p : Port) (w : World) :
    (r.openPort p w).registry.Ensures property := by
  rcases r.openPort_cases p w with ⟨-, hfailed⟩ | ⟨-, _, -, hfailed⟩ | ⟨-, -, _, _, -, hfailed⟩ |
    ⟨-, hvalid, device, w', hopened, hnew⟩
  · rwa [hfailed]
  · rwa [hfailed]
  · rwa [hfailed]
  · rw [hnew]
    refine h.put p fun s hs ↦ ?_
    rw [← Option.some.inj hs]
    exact h.new hvalid hopened

theorem close (h : r.Ensures property) (p : Port) (w : World) :
    (r.close p w).registry.Ensures property := by
  rcases r.close_sessions p w with hput | ⟨-, hclose⟩
  · rw [hput]
    exact h.put p fun s hs ↦ by cases hs
  · rwa [hclose]

theorem onSession {α : Type} {f : Session World → World → Session.Result World α}
    (h : r.Ensures property) (hf : ∀ s w, property s → property (f s w).session) (p : Port)
    (w : World) : (r.onSession p w f).registry.Ensures property := by
  by_cases hopen : r.IsOpen p
  · obtain ⟨s, hs⟩ := isOpen_iff.mp hopen
    rw [onSession_of_open f hs]
    refine h.put p fun t ht ↦ ?_
    rw [← Option.some.inj ht]
    exact hf s w (h.held hs)
  · rwa [onSession_of_closed f hopen]

end Ensures

/-! ### Closing several ports -/

/-- What closing several ports one after another comes to. -/
structure CloseEachSpec (r : Registry World) (ps : List Port) (done : Result World Unit) :
    Prop where
  source_eq : done.registry.opener = r.opener ∧ done.registry.defaults = r.defaults
  /-- No session is changed; it stays or it is gone. -/
  kept : ∀ {q s}, done.registry.sessions q = some s → r.sessions q = some s
  closed : done.outcome = .ok () → ∀ q ∈ ps, ¬ done.registry.IsOpen q
  ne_error : ∀ e, done.outcome ≠ .error e
  /-- Devices that keep to their patience let it come to an end. -/
  eq_ok : (∀ {p s}, r.sessions p = some s → s.device.Patient) → done.outcome = .ok ()

theorem close_source (r : Registry World) (p : Port) (w : World) :
    (r.close p w).registry.opener = r.opener ∧ (r.close p w).registry.defaults = r.defaults := by
  rcases r.close_sessions p w with hput | ⟨-, hclose⟩
  · rw [hput]
    exact ⟨rfl, rfl⟩
  · rw [hclose]
    exact ⟨rfl, rfl⟩

theorem sessions_of_close {r : Registry World} {p q : Port} {w : World} {s : Session World}
    (h : (r.close p w).registry.sessions q = some s) : r.sessions q = some s := by
  have hopen := isOpen_iff.mpr ⟨s, h⟩
  rcases r.close_sessions p w with hput | ⟨-, hclose⟩
  · rw [isOpen_close] at hopen
    rwa [hput, put_sessions_of_ne r _ hopen.1] at h
  · rwa [hclose] at h

/-- By induction on the ports. That a port is not open any more does not keep the next ones from
being closed. -/
theorem closeEach_spec (r : Registry World) (w : World) (ps : List Port) :
    CloseEachSpec r ps (r.closeEach w ps) := by
  induction ps generalizing r w with
  | nil =>
    exact ⟨⟨rfl, rfl⟩, fun h ↦ h, fun _ _ hq ↦ absurd hq List.not_mem_nil, by simp [closeEach],
      fun _ ↦ rfl⟩
  | cons p ps ih =>
    have hsource := r.close_source p w
    have hkept : ∀ {q s}, (r.close p w).registry.sessions q = some s → r.sessions q = some s :=
      sessions_of_close
    have hgone : ¬ (r.close p w).registry.IsOpen p := by
      rw [isOpen_close]
      exact fun h ↦ h.1 rfl
    have hdone : (∀ {p s}, r.sessions p = some s → s.device.Patient) →
        ∀ reason, (r.close p w).outcome ≠ .halt reason := by
      intro hpatient reason
      by_cases hopen : r.IsOpen p
      · obtain ⟨s, hs⟩ := isOpen_iff.mp hopen
        rw [close_eq_ok hs (hpatient hs)]
        simp
      · rw [close_of_closed hopen]
        simp
    unfold closeEach
    rcases hclose : r.close p w with ⟨outcome, r', w'⟩
    rw [hclose] at hsource hkept hgone hdone
    have hrest := ih r' w'
    have hspec : CloseEachSpec r (p :: ps) (r'.closeEach w' ps) := by
      refine ⟨⟨hrest.source_eq.1.trans hsource.1, hrest.source_eq.2.trans hsource.2⟩,
        fun h ↦ hkept (hrest.kept h), fun hok q hq hopen ↦ ?_, hrest.ne_error,
        fun hpatient ↦ hrest.eq_ok fun h ↦ hpatient (hkept h)⟩
      rcases List.mem_cons.mp hq with rfl | hlater
      · obtain ⟨s, hs⟩ := isOpen_iff.mp hopen
        exact hgone (isOpen_iff.mpr ⟨s, hrest.kept hs⟩)
      · exact hrest.closed hok q hlater hopen
    cases outcome with
    | halt reason =>
      exact ⟨hsource, hkept, by simp, by simp,
        fun hpatient ↦ absurd rfl (hdone hpatient reason)⟩
    | ok _ => exact hspec
    | error e => exact hspec

theorem Ensures.closeAll {property : Session World → Prop} {r : Registry World}
    (h : r.Ensures property) (w : World) : (r.closeAll w).registry.Ensures property := by
  have hspec := r.closeEach_spec w r.openPorts
  refine ⟨fun hs ↦ h.held (hspec.kept hs), ?_⟩
  rw [Registry.closeAll, hspec.source_eq.1, hspec.source_eq.2]
  exact h.new

end Registry

end SerialLine
