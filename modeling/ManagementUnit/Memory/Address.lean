/-
  ManagementUnit.Memory.Address
  ────────────────────────────────
  Physical addresses as the firmware reports them, and why a range of them
  could not be made readable.

  An address travels in two 32-bit words, low half first.

  Main results:
    * `ofHalves_low_high` — the halves of an address make it up again.
-/
import ManagementUnit.Text.Basic

namespace ManagementUnit

/-- An address in physical memory. -/
structure PhysicalAddress where
  value : UInt64
  deriving DecidableEq

namespace PhysicalAddress

/-- The address with the given low and high halves. -/
def ofHalves (low high : UInt32) : PhysicalAddress :=
  ⟨UInt64.ofNat (low.toNat + high.toNat * 0x100000000)⟩

/-- An address in the first 4 GiB. -/
def ofWord (w : UInt32) : PhysicalAddress := ofHalves w 0

/-- The lower 32 bits of an address. -/
def low (a : PhysicalAddress) : UInt32 := UInt32.ofNat (a.value.toNat % 0x100000000)

/-- The upper 32 bits of an address. -/
def high (a : PhysicalAddress) : UInt32 := UInt32.ofNat (a.value.toNat / 0x100000000)

/-- Whether an address is zero. -/
def isNull (a : PhysicalAddress) : Bool := a.value == 0

/-- Sixteen digits behind the marker. -/
def text (a : PhysicalAddress) : String := Hex.markedTo 18 a.value.toNat

/-- The text with the kind of value in front of it. -/
def taggedText (a : PhysicalAddress) : String := "PhysicalAddress(" ++ a.text ++ ")"

/-- The tagged text of an address that may be absent. -/
def optionalText : Option PhysicalAddress → String
  | none => "None"
  | some a => "Some(" ++ a.taggedText ++ ")"

/-- The halves of an address make it up again. -/
theorem ofHalves_low_high (a : PhysicalAddress) : ofHalves a.low a.high = a := by
  cases a with
  | mk v =>
    have h := v.toNat_lt
    simp only [ofHalves, low, high, mk.injEq]
    apply UInt64.toNat.inj
    simp only [UInt32.toNat_ofNat', UInt64.toNat_ofNat']
    omega

end PhysicalAddress

/-- A physical range that could not be mapped. -/
structure MapError where
  base : PhysicalAddress
  length : Nat
  deriving DecidableEq

/-- The error text of a range that could not be mapped. -/
def MapError.message (e : MapError) : String :=
  "cannot map " ++ Hex.marked e.length ++ " bytes at physical address " ++ e.base.text

/-- Where a mapped range became readable: a place in some block of memory.  The
driver never looks inside one; it only hands it back. -/
structure Place where
  block : Nat
  offset : Nat
  deriving DecidableEq

end ManagementUnit
