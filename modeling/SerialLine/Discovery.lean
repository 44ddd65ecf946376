import SerialLine.Config
/-!
The serial devices of a system in order: adapters of modem class, other adapters, and everything
else; within the first two kinds by number and then by name, the part of a path after the last
slash.

The order does not tell namesakes apart, devices of one name in different folders. They stand in
the order in which the collection that keeps the devices by path yields them. Every list is made
with a collection of its own, so this order may be another one each time.
-/

set_option autoImplicit false

namespace SerialLine

/-- What the system knows about a USB device. -/
structure UsbIdentity where
  vendor : Nat
  product : Nat
  productName : Option String
  deriving DecidableEq

/-- A serial device as the system enumerates it. -/
structure EnumeratedPort where
  name : String
  usb : Option UsbIdentity
  deriving DecidableEq

/-- An entry of the list of devices. -/
structure DeviceInfo where
  name : String
  usb : Bool
  vendor : Option Nat
  product : Option Nat
  productName : Option String
  deriving DecidableEq

namespace DeviceInfo

def modemStem : List Char := "ttyACM".toList

def adapterStem : List Char := "ttyUSB".toList

/-- The part of a path after the last slash. -/
def baseName (path : String) : List Char := (path.toList.reverse.takeWhile (· ≠ '/')).reverse

/-- USB adapters are recognised by their names where nothing else is known about them. -/
def looksLikeUsb (path : String) : Bool :=
  modemStem.isPrefixOf (baseName path) || adapterStem.isPrefixOf (baseName path)

def ofEnumerated (p : EnumeratedPort) : DeviceInfo :=
  match p.usb with
  | some usb => ⟨p.name, true, some usb.vendor, some usb.product, usb.productName⟩
  | none => ⟨p.name, looksLikeUsb p.name, none, none, none⟩

/-- The largest number of a device, which also stands for every name without a usable number. -/
def largestNumber : Nat := UInt64.size - 1

/-- The number at the end of a name: decimal digits, with or without a plus sign. -/
def number (digits : List Char) : Nat :=
  let digits := match digits with
    | '+' :: rest => rest
    | _ => digits
  if digits ≠ [] ∧ digits.all Char.isDigit then
    min largestNumber (digits.foldl (fun n c => 10 * n + (c.toNat - '0'.toNat)) 0)
  else largestNumber

/-- What devices are sorted by. -/
structure Rank where
  kind : Nat
  number : Nat
  base : List Char
  deriving DecidableEq

/-- The lexicographic order of names by their code points. -/
def nameLe : List Char → List Char → Bool
  | [], _ => true
  | _ :: _, [] => false
  | c :: cs, d :: ds => if c = d then nameLe cs ds else c.toNat < d.toNat

/-- The lexicographic order of the three parts. -/
def Rank.le (a b : Rank) : Bool :=
  if a.kind ≠ b.kind then a.kind < b.kind
  else if a.number ≠ b.number then a.number < b.number
  else nameLe a.base b.base

def rank (path : String) : Rank :=
  let base := baseName path
  if modemStem.isPrefixOf base then ⟨0, number (base.drop modemStem.length), base⟩
  else if adapterStem.isPrefixOf base then ⟨1, number (base.drop adapterStem.length), base⟩
  else ⟨2, 0, base⟩

/-- Sorts devices by rank. -/
def sort (devices : List DeviceInfo) : List DeviceInfo :=
  devices.mergeSort fun a b => (rank a.name).le (rank b.name)

/-- Keeps the first device of every name. -/
def firstOfName : List DeviceInfo → List DeviceInfo
  | [] => []
  | d :: ds => d :: (firstOfName ds).filter (·.name ≠ d.name)

/-- The entries of a list: one for each name, made from the first port of that name. -/
def entries (found : List EnumeratedPort) : List DeviceInfo := firstOfName (found.map ofEnumerated)

/-- The order in which a collection of entries yields them: any order. -/
structure Arrangement where
  arrange : List DeviceInfo → List DeviceInfo
  perm : ∀ entries, (arrange entries).Perm entries

/-- The order in which the entries were found. -/
def Arrangement.asFound : Arrangement := ⟨id, List.Perm.refl⟩

/-- Lists the devices, with a collection that has the given arrangement. -/
def list (arrangement : Arrangement) (found : List EnumeratedPort) : List DeviceInfo :=
  sort (arrangement.arrange (entries found))

/-- The path of a USB device, counted from zero in the order of a list. -/
def usbPath? (devices : List DeviceInfo) (index : Nat) : Option String :=
  ((devices.filter (·.usb))[index]?).map (·.name)

/-- The path of a USB device in a list that is made to look it up. -/
def usbDevice? (arrangement : Arrangement) (found : List EnumeratedPort) (index : Nat) :
    Option String :=
  usbPath? (list arrangement found) index

end DeviceInfo

/-- The place among the USB devices where a port without a configured path looks for its own. -/
def Port.place? : Port → Option Nat
  | .usb1 => some 0
  | .usb2 => some 1
  | .onboard | .mxp => none

/-- The path of the device behind a port: the configured one, or else that of the first or the
second USB device for the USB ports. -/
def DevicePaths.resolve (paths : DevicePaths) (arrangement : DeviceInfo.Arrangement)
    (found : List EnumeratedPort) (port : Port) : Option String :=
  match paths.path? port, port.place? with
  | some path, _ => some path
  | none, some place => DeviceInfo.usbDevice? arrangement found place
  | none, none => none

end SerialLine
