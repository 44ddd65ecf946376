import Mathlib.Data.List.Pairwise
import SerialLine.Proofs.Discovery.Listing
/-!
# The devices behind different ports

The path of a port is the one configured for it. A USB port without one discovers its device: it
takes the first or the second USB device of a list that is made to look it up
(`resolve_eq_some_iff`).

Neither gives one path to two ports as long as all configured paths are different, and no two USB
devices are namesakes that different lists may have in different places. But what is discovered does
not depend on what is configured, so a port may discover the very device that another port is
configured with, and this is the only way in which two ports come by the same path
(`resolve_eq_iff`). It makes no difference how the devices are found: one that is only known by its
name is listed by it.
-/

set_option autoImplicit false

namespace SerialLine

theorem Port.place?_injective {p q : Port} {i : Nat} (hp : p.place? = some i)
    (hq : q.place? = some i) : p = q := by
  cases p <;> cases q <;> simp_all [place?] <;> omega

namespace DevicePaths

open DeviceInfo (Arrangement NoNamesakes entries usbDevice?)

/-- The paths that are configured, in the order of their ports. -/
def configured (paths : DevicePaths) : List String := Port.all.filterMap paths.path?

variable {paths : DevicePaths} {arrangement arrangement' : Arrangement}
  {found : List EnumeratedPort} {p q : Port} {path other : String}

/-- If all of them are different, a path belongs to one port. -/
theorem eq_of_path?_eq (h : paths.configured.Nodup) (hp : paths.path? p = some path)
    (hq : paths.path? q = some path) : p = q := by
  have hpairs := List.pairwise_filterMap.mp h
  by_contra hne
  have : Std.Symm fun a b ↦ ∀ x, paths.path? a = some x → ∀ y, paths.path? b = some y → x ≠ y :=
    ⟨fun _ _ hdiffer x hx y hy ↦ (hdiffer y hy x hx).symm⟩
  exact hpairs.forall p.mem_all q.mem_all hne path hp path hq rfl

/-- A port finds its device by the place of the device in a list. -/
def Discovers (paths : DevicePaths) (arrangement : Arrangement) (found : List EnumeratedPort)
    (port : Port) (path : String) : Prop :=
  paths.path? port = none ∧ ∃ i, port.place? = some i ∧ usbDevice? arrangement found i = some path

theorem resolve_eq_some_iff : paths.resolve arrangement found p = some path ↔
    paths.path? p = some path ∨ paths.Discovers arrangement found p path := by
  unfold resolve Discovers
  cases paths.path? p with
  | some configured => simp
  | none => cases p <;> simp [Port.place?]

/-- One port discovers the device that another one is configured with. -/
def Takes (paths : DevicePaths) (arrangement : Arrangement) (found : List EnumeratedPort)
    (owner taker : Port) : Prop :=
  ∃ path, paths.path? owner = some path ∧ paths.Discovers arrangement found taker path

theorem not_takes_of_path? {owner taker : Port} (h : paths.path? taker = some path) :
    ¬paths.Takes arrangement found owner taker := by
  rintro ⟨_, -, hnone, -⟩
  cases h.symm.trans hnone

theorem not_takes_of_discovers {owner taker : Port}
    (h : paths.Discovers arrangement' found owner path) :
    ¬paths.Takes arrangement found owner taker := by
  rintro ⟨_, howner, -⟩
  cases howner.symm.trans h.1

theorem Discovers.unique (h : paths.Discovers arrangement found p path)
    (h' : paths.Discovers arrangement found p other) : path = other := by
  obtain ⟨-, i, hi, hpath⟩ := h
  obtain ⟨-, j, hj, hother⟩ := h'
  obtain rfl : i = j := Option.some.inj (hi.symm.trans hj)
  exact Option.some.inj (hpath.symm.trans hother)

/-- Without namesakes a device is discovered by one port only, in whichever lists it is looked up. -/
theorem Discovers.port_unique (h : NoNamesakes ((entries found).filter (·.usb)))
    (hp : paths.Discovers arrangement found p path)
    (hq : paths.Discovers arrangement' found q path) : p = q := by
  obtain ⟨-, i, hi, hpath⟩ := hp
  obtain ⟨-, j, hj, hpath'⟩ := hq
  obtain rfl : i = j := DeviceInfo.usbDevice?_injective h hpath hpath'
  exact Port.place?_injective hi hj

/-- A port that has its path from the configuration shares it with one that discovers its own
exactly if this one takes it. -/
theorem eq_iff_takes (hp : paths.path? p = some path)
    (hq : paths.Discovers arrangement found q other) :
    path = other ↔ paths.Takes arrangement found p q := by
  constructor
  · rintro rfl
    exact ⟨path, hp, hq⟩
  · rintro ⟨taken, hconfigured, hdiscovered⟩
    obtain rfl : path = taken := Option.some.inj (hp.symm.trans hconfigured)
    exact hdiscovered.unique hq

/-- Whichever devices are found, and however each of two lookups arranges them: two ports come by the
same path exactly if one of them is configured with the device that the other one discovers. If
neither is configured, no two USB devices may be namesakes. -/
theorem resolve_eq_iff (hpaths : paths.configured.Nodup) (hports : p ≠ q)
    (hnamesakes : paths.path? p = none → paths.path? q = none →
      NoNamesakes ((entries found).filter (·.usb)))
    (hp : paths.resolve arrangement found p = some path)
    (hq : paths.resolve arrangement' found q = some other) :
    path = other ↔ paths.Takes arrangement' found p q ∨ paths.Takes arrangement found q p := by
  rcases resolve_eq_some_iff.mp hp with hp | hp <;> rcases resolve_eq_some_iff.mp hq with hq | hq
  · refine iff_of_false (fun heq ↦ hports (eq_of_path?_eq hpaths hp (heq ▸ hq))) ?_
    exact not_or.mpr ⟨not_takes_of_path? hq, not_takes_of_path? hp⟩
  · rw [or_iff_left (not_takes_of_path? hp)]
    exact eq_iff_takes hp hq
  · rw [or_iff_right (not_takes_of_path? hq), eq_comm]
    exact eq_iff_takes hq hp
  · have hnone := hnamesakes hp.1 hq.1
    refine iff_of_false (fun heq ↦ hports (hp.port_unique hnone (heq ▸ hq))) ?_
    exact not_or.mpr ⟨not_takes_of_discovers hp, not_takes_of_discovers hq⟩

/-- Two adapters, as they are found and as they are listed. -/
def adapters : List EnumeratedPort := [⟨"/dev/ttyUSB0", none⟩, ⟨"/dev/ttyUSB1", none⟩]

theorem list_adapters : DeviceInfo.list .asFound adapters = adapters.map DeviceInfo.ofEnumerated :=
  DeviceInfo.list_of_sorted (by decide) (by decide +kernel)

/-- If the first USB port is configured with the second adapter, both USB ports have it. -/
theorem second_adapter_taken_twice :
    let paths : DevicePaths := { usb1 := some "/dev/ttyUSB1" }
    paths.configured.Nodup ∧
      paths.resolve .asFound adapters .usb1 = some "/dev/ttyUSB1" ∧
      paths.resolve .asFound adapters .usb2 = some "/dev/ttyUSB1" := by
  intro paths
  refine ⟨by decide, rfl, ?_⟩
  simp only [resolve, usbDevice?, list_adapters]
  decide +kernel

/-- If it is configured with the first one, the other USB port discovers the second one, and
neither takes the device of the other. -/
theorem first_adapter_taken_once :
    let paths : DevicePaths := { usb1 := some "/dev/ttyUSB0" }
    paths.configured.Nodup ∧ (Port.usb1 ≠ Port.usb2) ∧
      NoNamesakes ((entries adapters).filter (·.usb)) ∧
      paths.resolve .asFound adapters .usb1 = some "/dev/ttyUSB0" ∧
      paths.resolve .asFound adapters .usb2 = some "/dev/ttyUSB1" ∧
      ¬(paths.Takes .asFound adapters .usb1 .usb2 ∨ paths.Takes .asFound adapters .usb2 .usb1) := by
  intro paths
  have hpaths : paths.configured.Nodup := by decide
  have hnamesakes : NoNamesakes ((entries adapters).filter (·.usb)) := by decide +kernel
  have hfirst : paths.resolve .asFound adapters .usb1 = some "/dev/ttyUSB0" := rfl
  have hsecond : paths.resolve .asFound adapters .usb2 = some "/dev/ttyUSB1" := by
    simp only [resolve, usbDevice?, list_adapters]
    decide +kernel
  refine ⟨hpaths, by decide, hnamesakes, hfirst, hsecond, fun htakes ↦ ?_⟩
  have hsame := (resolve_eq_iff hpaths (by decide) (fun _ _ ↦ hnamesakes) hfirst hsecond).mpr htakes
  exact absurd hsame (by decide)

end DevicePaths

end SerialLine
