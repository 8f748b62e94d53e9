/-! # Capability masks
A mask is a set of capabilities packed into 32 bits. Only READ carries meaning here; every other bit
is kept and combined as it is. -/

namespace PathAcl

/-- A **mask** of granted capabilities. -/
structure Mask where
  /-- The bits, one a capability. -/
  bits : UInt32
  deriving Repr, DecidableEq, Inhabited

namespace Mask

/-- No capability. -/
def none : Mask := ⟨0⟩
/-- The capability to read. -/
def read : Mask := ⟨1⟩
/-- The capability to write. -/
def write : Mask := ⟨2⟩
/-- The capability to execute. -/
def execute : Mask := ⟨4⟩

instance : OrOp Mask := ⟨fun a b => ⟨a.bits ||| b.bits⟩⟩

instance : AndOp Mask := ⟨fun a b => ⟨a.bits &&& b.bits⟩⟩

/-- Whether every bit of `b` is set in `a`. -/
def contains (a b : Mask) : Bool := (a.bits &&& b.bits) == b.bits

/-- Whether no bit is set. -/
def isEmpty (a : Mask) : Bool := a.bits == 0

/-- The bits as a decimal number. -/
def text (a : Mask) : String := toString a.bits.toNat

theorem or_bits (a b : Mask) : (a ||| b).bits = a.bits ||| b.bits := rfl

theorem and_bits (a b : Mask) : (a &&& b).bits = a.bits &&& b.bits := rfl

end Mask

end PathAcl
