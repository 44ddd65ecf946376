import SerialLine.Refusal
/-!
The parameters of a serial line that take one of a few values. Each value has an integer code, a
name, and a word for configuration files; reading a code and taking the code of a value are
inverse to each other.
-/

set_option autoImplicit false

namespace SerialLine

inductive DataBits
  | five
  | six
  | seven
  | eight
  deriving DecidableEq

namespace DataBits

def all : List DataBits := [.five, .six, .seven, .eight]

/-- The number of bits, which is also the code. -/
def code : DataBits → Nat
  | .five => 5
  | .six => 6
  | .seven => 7
  | .eight => 8

def name : DataBits → String
  | .five => "Five"
  | .six => "Six"
  | .seven => "Seven"
  | .eight => "Eight"

def ofCode (bits : Int) : Except Refusal DataBits :=
  match all.find? fun d => (d.code : Int) = bits with
  | some d => .ok d
  | none => .error (if 0 ≤ bits ∧ bits ≤ 255 then .dataBits bits else .dataBitsRange bits)

theorem ofCode_code (d : DataBits) : ofCode d.code = .ok d := by cases d <;> rfl

end DataBits

inductive Parity
  | none
  | odd
  | even
  | mark
  | space
  deriving DecidableEq

namespace Parity

def all : List Parity := [.none, .odd, .even, .mark, .space]

def code : Parity → Nat
  | .none => 0
  | .odd => 1
  | .even => 2
  | .mark => 3
  | .space => 4

def name : Parity → String
  | .none => "None"
  | .odd => "Odd"
  | .even => "Even"
  | .mark => "Mark"
  | .space => "Space"

def key : Parity → String
  | .none => "none"
  | .odd => "odd"
  | .even => "even"
  | .mark => "mark"
  | .space => "space"

/-- The letter between data bits and stop bits in a summary such as `9600 8N1`. -/
def letter : Parity → String
  | .none => "N"
  | .odd => "O"
  | .even => "E"
  | .mark => "M"
  | .space => "S"

def ofCode (code : Int) : Except Refusal Parity :=
  match all.find? fun p => (p.code : Int) = code with
  | some p => .ok p
  | .none => .error (.parity code)

theorem ofCode_code (p : Parity) : ofCode p.code = .ok p := by cases p <;> rfl

end Parity

inductive StopBits
  | one
  | onePointFive
  | two
  deriving DecidableEq

namespace StopBits

def all : List StopBits := [.one, .onePointFive, .two]

/-- Ten times the length of the stop bit. -/
def code : StopBits → Nat
  | .one => 10
  | .onePointFive => 15
  | .two => 20

def name : StopBits → String
  | .one => "One"
  | .onePointFive => "OnePointFive"
  | .two => "Two"

def key : StopBits → String
  | .one => "one"
  | .onePointFive => "one_point_five"
  | .two => "two"

/-- The length of the stop bit. -/
def length : StopBits → String
  | .one => "1"
  | .onePointFive => "1.5"
  | .two => "2"

def ofCode (code : Int) : Except Refusal StopBits :=
  match all.find? fun s => (s.code : Int) = code with
  | some s => .ok s
  | none => .error (.stopBits code)

theorem ofCode_code (s : StopBits) : ofCode s.code = .ok s := by cases s <;> rfl

end StopBits

inductive FlowControl
  | none
  | xonXoff
  | rtsCts
  | dtrDsr
  deriving DecidableEq

namespace FlowControl

def all : List FlowControl := [.none, .xonXoff, .rtsCts, .dtrDsr]

def code : FlowControl → Nat
  | .none => 0
  | .xonXoff => 1
  | .rtsCts => 2
  | .dtrDsr => 4

def name : FlowControl → String
  | .none => "None"
  | .xonXoff => "XonXoff"
  | .rtsCts => "RtsCts"
  | .dtrDsr => "DtrDsr"

def key : FlowControl → String
  | .none => "none"
  | .xonXoff => "xon_xoff"
  | .rtsCts => "rts_cts"
  | .dtrDsr => "dtr_dsr"

def ofCode (code : Int) : Except Refusal FlowControl :=
  match all.find? fun f => (f.code : Int) = code with
  | some f => .ok f
  | .none => .error (.flowControl code)

theorem ofCode_code (f : FlowControl) : ofCode f.code = .ok f := by cases f <;> rfl

end FlowControl

/-- When written bytes leave for the device. -/
inductive WriteMode
  /-- With every write, followed by a flush of the device. -/
  | flushOnAccess
  /-- Whenever a whole write buffer has come together. -/
  | flushWhenFull
  deriving DecidableEq

namespace WriteMode

def all : List WriteMode := [.flushOnAccess, .flushWhenFull]

def code : WriteMode → Nat
  | .flushOnAccess => 1
  | .flushWhenFull => 2

def name : WriteMode → String
  | .flushOnAccess => "FlushOnAccess"
  | .flushWhenFull => "FlushWhenFull"

def key : WriteMode → String
  | .flushOnAccess => "flush_on_access"
  | .flushWhenFull => "flush_when_full"

def ofCode (code : Int) : Except Refusal WriteMode :=
  match all.find? fun m => (m.code : Int) = code with
  | some m => .ok m
  | none => .error (.writeMode code)

theorem ofCode_code (m : WriteMode) : ofCode m.code = .ok m := by cases m <;> rfl

end WriteMode

end SerialLine
