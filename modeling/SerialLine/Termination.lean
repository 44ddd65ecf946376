/-!
Frames. A line may have a terminator, and a frame then ends with the first terminator in it; in
any case it ends when it has reached its limit or the data are used up.
-/

set_option autoImplicit false

namespace SerialLine

abbrev Bytes := List UInt8

/-- Linefeed, the terminator that callers use unless they choose another. -/
def defaultTerminator : UInt8 := 10

/-- The terminator of a line, if it has one. -/
structure Termination where
  terminator : Option UInt8 := none
  deriving DecidableEq

namespace Termination

def disabled : Termination := {}

def enabled (terminator : UInt8) : Termination := ⟨some terminator⟩

/-- The length of the first frame of at most `limit` bytes. -/
def frameLength (t : Termination) (data : Bytes) (limit : Nat) : Nat :=
  let window := data.take limit
  match t.terminator with
  | none => window.length
  | some b =>
    match window.idxOf? b with
    | some i => i + 1
    | none => window.length

/-- Whether a frame ends with the terminator. -/
def Completes (t : Termination) (frame : Bytes) : Prop :=
  t.terminator.isSome ∧ frame.getLast? = t.terminator

instance (t : Termination) (frame : Bytes) : Decidable (t.Completes frame) :=
  inferInstanceAs (Decidable (_ ∧ _))

end Termination

end SerialLine
