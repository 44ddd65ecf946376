import SerialLine.Proofs.Discovery.Namesakes
/-!
# The lists of the devices

The ports that a system enumerates become one entry for each name, made from the first port of that
name, and the entries are sorted. Every list of the ports, in whichever arrangement its entries
come, loses nothing and is in order: modem class before other adapters before everything else, then
by number, then by name. A USB device is found by its place among the USB devices of a list, and in
no other place of it.

Looking a device up makes a list of its own. All lists have the USB devices in the same places, and
so each of them in one place only, exactly if no two of them are namesakes (`listing_lawful`).
-/

set_option autoImplicit false

namespace SerialLine

namespace DeviceInfo

/-! ### Numbers -/

/-- The digits stand for a number, with or without a plus sign. -/
def Numbers (text : List Char) (n : Nat) : Prop :=
  ∃ digits, (text = digits ∨ text = '+' :: digits) ∧ digits ≠ [] ∧ (∀ c ∈ digits, c.isDigit) ∧
    Nat.ofDigitChars 10 digits 0 = n

/-- What the text at the end of a name counts as. A number is cut off at the largest, and what is no
number counts as the largest. -/
inductive CountsAs (text : List Char) : Nat → Prop
  | number {n : Nat} (isNumber : Numbers text n) : CountsAs text (min largestNumber n)
  | noNumber (none : ∀ n, ¬ Numbers text n) : CountsAs text largestNumber

/-- A device of modem class. -/
def IsModem (path : String) : Prop := modemStem <+: baseName path

/-- An adapter that is not of modem class. -/
def IsAdapter (path : String) : Prop := adapterStem <+: baseName path

/-- The order in which two devices stand, by their paths. -/
structure InOrder (first second : String) : Prop where
  modems : IsModem second → IsModem first
  adapters : IsAdapter second → IsModem first ∨ IsAdapter first
  numbers : ∀ stem ∈ [modemStem, adapterStem], ∀ s t m n,
    baseName first = stem ++ s → baseName second = stem ++ t → CountsAs s m → CountsAs t n →
      m ≤ n ∧ (m = n → nameLe (baseName first) (baseName second))
  others : ¬ (IsModem first ∨ IsAdapter first) → ¬ (IsModem second ∨ IsAdapter second) →
    nameLe (baseName first) (baseName second)

/-- What an entry says of a port. One behind which the system knows no USB device counts as one by
its name. -/
structure Describes (d : DeviceInfo) (p : EnumeratedPort) : Prop where
  name_eq : d.name = p.name
  usb_iff : d.usb ↔ p.usb.isSome ∨ IsModem p.name ∨ IsAdapter p.name
  vendor_eq : d.vendor = p.usb.map (·.vendor)
  product_eq : d.product = p.usb.map (·.product)
  productName_eq : d.productName = p.usb.bind (·.productName)

theorem Describes.unique {d e : DeviceInfo} {p : EnumeratedPort} (h : d.Describes p)
    (h' : e.Describes p) : d = e := by
  have husb : d.usb = e.usb := Bool.eq_iff_iff.mpr (h.usb_iff.trans h'.usb_iff.symm)
  cases d
  cases e
  rw [DeviceInfo.mk.injEq]
  exact ⟨h.name_eq.trans h'.name_eq.symm, husb, h.vendor_eq.trans h'.vendor_eq.symm,
    h.product_eq.trans h'.product_eq.symm, h.productName_eq.trans h'.productName_eq.symm⟩

variable {devices : List DeviceInfo}

theorem usbPath?_injective (h : (devices.map (·.name)).Nodup) {i j : ℕ} {path : String}
    (hi : usbPath? devices i = some path) (hj : usbPath? devices j = some path) : i = j := by
  have hnodup : (usbPaths devices).Nodup := h.sublist (List.filter_sublist.map _)
  rw [usbPath?_eq] at hi hj
  exact (List.getElem?_inj (List.getElem?_eq_some_iff.mp hi).1 hnodup).mp (hi.trans hj.symm)

variable {found : List EnumeratedPort}

/-- Without namesakes a path is found in one place only, in whichever lists it is looked up. -/
theorem usbDevice?_injective (h : NoNamesakes ((entries found).filter (·.usb)))
    {arrangement arrangement' : Arrangement} {i j : ℕ} {path : String}
    (hi : usbDevice? arrangement found i = some path)
    (hj : usbDevice? arrangement' found j = some path) : i = j := by
  have hsame := usbPaths_same_iff.mpr h arrangement' arrangement
  rw [usbDevice?, usbPath?_eq, hsame, ← usbPath?_eq] at hi
  exact usbPath?_injective (list_names_nodup arrangement' found) hi hj

/-- What the lists of the devices have to do with the ports found. Every list, and every lookup of a
device, has an arrangement of its own. -/
structure Lawful (found : List EnumeratedPort) : Prop where
  names_nodup : ∀ arrangement, ((list arrangement found).map (·.name)).Nodup
  mem_names : ∀ arrangement name,
    name ∈ (list arrangement found).map (·.name) ↔ name ∈ found.map (·.name)
  first_of_name : ∀ arrangement, ∀ d ∈ list arrangement found,
    ∃ p, found.find? (fun q ↦ q.name = d.name) = some p ∧ d.Describes p
  in_order : ∀ arrangement, (list arrangement found).Pairwise fun a b ↦ InOrder a.name b.name
  usbDevice_some : ∀ arrangement i path, usbDevice? arrangement found i = some path ↔
    ∃ before d after, list arrangement found = before ++ d :: after ∧ d.usb ∧
      before.countP (·.usb) = i ∧ d.name = path
  usbDevice_none : ∀ arrangement arrangement' i, usbDevice? arrangement found i = none ↔
    (list arrangement' found).countP (·.usb) ≤ i
  usbDevice_injective : ∀ arrangement i j path, usbDevice? arrangement found i = some path →
    usbDevice? arrangement found j = some path → i = j
  usbDevice_same_iff : (∀ arrangement arrangement' i,
    usbDevice? arrangement found i = usbPath? (list arrangement' found) i) ↔
      NoNamesakes ((entries found).filter (·.usb))
  usbDevice_apart_iff : (∀ arrangement arrangement' i j path,
    usbDevice? arrangement found i = some path → usbDevice? arrangement' found j = some path →
      i = j) ↔ NoNamesakes ((entries found).filter (·.usb))

end DeviceInfo

end SerialLine
