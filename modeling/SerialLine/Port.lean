/-!
The serial ports of the controller, their codes, and the names they go by.
-/

set_option autoImplicit false

namespace SerialLine

/-- The ports of the controller, in the order of their codes. -/
inductive Port
  | onboard
  | mxp
  | usb1
  | usb2
  deriving DecidableEq

namespace Port

def all : List Port := [.onboard, .mxp, .usb1, .usb2]

def code : Port → Nat
  | .onboard => 0
  | .mxp => 1
  | .usb1 => 2
  | .usb2 => 3

def ofCode? (code : Int) : Option Port := all.find? fun p => (p.code : Int) = code

/-- The text a port is shown as to people. -/
def label : Port → String
  | .onboard => "Onboard"
  | .mxp => "MXP"
  | .usb1 => "USB1"
  | .usb2 => "USB2"

/-- The name of the constructor in diagnostic text. -/
def name : Port → String
  | .onboard => "Onboard"
  | .mxp => "Mxp"
  | .usb1 => "Usb1"
  | .usb2 => "Usb2"

/-- The word for a port in configuration files. -/
def key : Port → String
  | .onboard => "onboard"
  | .mxp => "mxp"
  | .usb1 => "usb1"
  | .usb2 => "usb2"

theorem mem_all (p : Port) : p ∈ all := by cases p <;> simp [all]

theorem ofCode?_code (p : Port) : ofCode? p.code = some p := by cases p <;> rfl

end Port

end SerialLine
