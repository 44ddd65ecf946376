import Mathlib.Data.List.Basic
import SerialLine.Proofs.CInterface.Gates
import SerialLine.Proofs.Session.Closing
/-!
# Closing ports

A port is closed by itself, together with all others, or by a call of the C interface. All three
come down to closing its session, so what `Session.ClosesOut` says of one session holds however the
port is closed. `Session.CloseInTurn` is a list of sessions that are closed one after another, each
in the world that the one before has left; closing all ports does this to the sessions of the open
ones, in the order of their codes (`Registry.closeEach_inTurn`). `closing_lawful` puts the three
together: the output that is pending has been delivered in order or is dropped with the session, and
none of it is kept.
-/

set_option autoImplicit false

namespace SerialLine

variable {World : Type}

/-- Sessions are closed one after another, each in the world that the one before has left, and each
of these closings ends. -/
inductive Session.CloseInTurn : World → List (Session World) → World → Prop
  | nil (w : World) : CloseInTurn w [] w
  | cons {w w' : World} {s : Session World} {rest : List (Session World)}
      (hok : (s.close w).outcome = .ok ()) (hcloses : s.ClosesOut w)
      (hrest : CloseInTurn (s.close w).world rest w') : CloseInTurn w (s :: rest) w'

namespace Registry

/-- By induction on the ports. The sessions of the later ones are still there, since no port is
closed twice. -/
theorem closeEach_inTurn (r : Registry World) (w : World) {ps : List Port} (hdistinct : ps.Nodup)
    (hok : (r.closeEach w ps).outcome = .ok ()) :
    Session.CloseInTurn w (ps.filterMap r.sessions) (r.closeEach w ps).world := by
  induction ps generalizing r w with
  | nil => exact .nil w
  | cons p ps ih =>
    obtain ⟨hnew, hlater⟩ := List.nodup_cons.mp hdistinct
    unfold closeEach at hok ⊢
    cases hs : r.sessions p with
    | none =>
      rw [close_of_closed (not_isOpen_iff.mpr hs)] at hok ⊢
      rw [List.filterMap_cons_none hs]
      exact ih r w hlater hok
    | some s =>
      have hothers : ps.filterMap (r.put p none).sessions = ps.filterMap r.sessions :=
        List.filterMap_congr fun q hq ↦ r.put_sessions_of_ne none fun h ↦ hnew (h ▸ hq)
      rw [List.filterMap_cons_some hs]
      rw [close_of_open hs] at hok ⊢
      cases hclose : (s.close w).outcome with
      | ok _ =>
        rw [hclose] at hok
        exact .cons hclose (s.closes_out w) (hothers ▸ ih _ _ hlater hok)
      | error e => exact absurd hclose (s.close_ne_error w e)
      | halt reason =>
        rw [hclose] at hok
        cases hok

end Registry

namespace CInterface.State

/-- Closing an open port through a call that finds the shared registry. -/
theorem call_close_of_open {p : State World} {r : Registry World} (hr : p.registry = some r)
    {port : Port} {s : Session World} (hs : r.sessions port = some s) {w : World}
    (hok : (s.close w).outcome = .ok ()) :
    p.call w .close port.code = (.ok ⟨0, 0, none⟩,
      { p with registry := some (r.put port none) }, (s.close w).world) := by
  have hready : p.ready = .ok r := by rw [ready, hr]
  have hport : Port.ofCode port.code = .ok port := by rw [Port.ofCode, Port.ofCode?_code]
  have hanswer : p.answer w .close port.code =
      ⟨.ok (0, []), { p with registry := some (r.put port none) }, (s.close w).world⟩ := by
    simp only [answer, Function.check, hport, withRegistry, hready, perform, Function.task,
      Registry.close_of_open hs, hok, Registry.Result.map, Outcome.map]
  rw [call, hanswer]
  rfl

end CInterface.State

namespace Registry

/-- How ports are closed: one by itself, one through a call of the C interface, and all of them. -/
structure ClosingLaw (r : Registry World) (w : World) : Prop where
  /-- The port is not open any more, whatever becomes of its pending output. -/
  one : ∀ {p s}, r.sessions p = some s → s.ClosesOut w ∧
    r.close p w = ⟨(s.close w).outcome, r.put p none, (s.close w).world⟩
  call : ∀ {p s}, r.sessions p = some s → (s.close w).outcome = .ok () →
    ∀ state : CInterface.State World, state.registry = some r →
      state.call w .close p.code = (.ok ⟨0, 0, none⟩,
        { state with registry := some (r.put p none) }, (s.close w).world)
  /-- Over devices that keep to their patience, closing all ports comes to an end. -/
  all_returns : (∀ {p s}, r.sessions p = some s → s.device.Patient) →
    (r.closeAll w).outcome = .ok ()
  all : (r.closeAll w).outcome = .ok () →
    (∀ p, ¬ (r.closeAll w).registry.IsOpen p) ∧
      Session.CloseInTurn w (r.openPorts.filterMap r.sessions) (r.closeAll w).world
  /-- All ports are closed in the order of their codes. -/
  order : r.openPorts.Pairwise fun p q ↦ p.code < q.code

/-- Closing a port, in whichever way, delivers its pending output or drops it. -/
theorem closing_lawful (r : Registry World) (w : World) : r.ClosingLaw w where
  one hs := ⟨Session.closes_out _ w, close_of_open hs w⟩
  call hs hok _ hr := CInterface.State.call_close_of_open hr hs hok
  all_returns := (r.closeEach_spec w r.openPorts).eq_ok
  all hok := by
    have hspec := r.closeEach_spec w r.openPorts
    refine ⟨fun p hopen ↦ ?_, r.closeEach_inTurn w ?_ hok⟩
    · obtain ⟨s, hs⟩ := isOpen_iff.mp hopen
      exact hspec.closed hok p ((r.mem_openPorts p).mpr (isOpen_iff.mpr ⟨s, hspec.kept hs⟩)) hopen
    · exact r.openPorts_pairwise.imp fun h heq ↦ by rw [heq] at h; exact Nat.lt_irrefl _ h
  order := r.openPorts_pairwise

end Registry

end SerialLine
