/-
  ManagementUnit.Network.Basic
  ────────────────────────────────
  The host bridge and the management network behind it.

  The bridge is a PCI function.  Its configuration space is read and written in
  32-bit words at 16-bit offsets; the word at offset 0 names vendor and device.
  Configuration mechanism #1 reaches only the first 256 bytes, and only at offsets
  divisible by four; `selector` refuses the others.

  The network is a space of 32-bit words at 32-bit addresses that is not memory
  mapped.  It is reached through a window of two registers in the configuration
  space of the bridge: the address is written to the index register, the word is
  then read from or written to the data register.

  Main results:
    * `BridgeId.ofWord_toWord` — an identity is read back from its word.
-/
import ManagementUnit.Text.Basic

namespace ManagementUnit

/-! ## §1. Addressing a function. -/

/-- Bus, device and function number of a PCI function. -/
structure FunctionAddress where
  bus : Nat
  device : Nat
  function : Nat
  deriving DecidableEq

namespace FunctionAddress

/-- The host bridge itself. -/
def hostBridge : FunctionAddress := ⟨0, 0, 0⟩

/-- Bus and device as two hexadecimal digits each, the function in decimal. -/
def text (a : FunctionAddress) : String :=
  Hex.padded 2 a.bus ++ ":" ++ Hex.padded 2 a.device ++ "." ++ Decimal.digits a.function

end FunctionAddress

/-! ## §2. Faults. -/

/-- A configuration access that did not go through. -/
structure BridgeFault where
  offset : UInt16
  deriving DecidableEq

/-- The error text of a configuration access that did not go through. -/
def BridgeFault.message (f : BridgeFault) : String :=
  "configuration space access at offset " ++ Hex.marked f.offset.toNat ++ " failed"

/-- The word by which configuration mechanism #1 selects an offset of a function,
or a fault if it cannot reach the offset. -/
def FunctionAddress.selector (a : FunctionAddress) (offset : UInt16) :
    Except BridgeFault UInt32 :=
  if offset > 0xFC ∨ offset % 4 ≠ 0 then .error ⟨offset⟩
  else .ok (UInt32.ofNat (0x80000000 + a.bus * 0x10000 + a.device % 0x20 * 0x800
    + a.function % 8 * 0x100 + offset.toNat))

/-! ## §3. Vendor and device. -/

/-- Vendor and device number of a PCI function. -/
structure BridgeId where
  vendor : UInt16
  device : UInt16
  deriving DecidableEq

namespace BridgeId

/-- The vendor of every bridge that carries a management network. -/
def knownVendor : UInt16 := 0x1022

/-- The devices of that vendor that carry one. -/
def knownDevices : List UInt16 := [0x1450, 0x15D0, 0x1480, 0x1630]

/-- The identity in the first configuration word: the vendor in its low half. -/
def ofWord (w : UInt32) : BridgeId := ⟨UInt16.ofNat w.toNat, UInt16.ofNat (w.toNat / 0x10000)⟩

/-- The first configuration word of a function with this identity. -/
def toWord (i : BridgeId) : UInt32 := UInt32.ofNat (i.vendor.toNat + i.device.toNat * 0x10000)

/-- Whether a bridge with this identity leads to a management network. -/
def isKnown (i : BridgeId) : Bool := i.vendor == knownVendor && knownDevices.contains i.device

/-- An identity is read back from its word. -/
theorem ofWord_toWord (i : BridgeId) : ofWord i.toWord = i := by
  cases i with
  | mk v d =>
    have hv := v.toNat_lt
    have hd := d.toNat_lt
    simp only [ofWord, toWord, UInt32.toNat_ofNat', mk.injEq]
    constructor <;> apply UInt16.toNat.inj <;> simp only [UInt16.toNat_ofNat'] <;> omega

/-- Vendor and device as four hexadecimal digits each. -/
def text (i : BridgeId) : String :=
  Hex.padded 4 i.vendor.toNat ++ ":" ++ Hex.padded 4 i.device.toNat

end BridgeId

/-! ## §4. Windows. -/

/-- The way into the network: the configuration offsets of the index register and
the data register. -/
structure Window where
  index : UInt16
  data : UInt16
  deriving DecidableEq

namespace Window

/-- The window that is used unless another one is asked for. -/
def standard : Window := ⟨0xC4, 0xC8⟩

/-- An equivalent window at lower offsets. -/
def low : Window := ⟨0x60, 0x64⟩

/-- An equivalent window between the two others. -/
def middle : Window := ⟨0xB4, 0xB8⟩

end Window

/-! ## §5. Faults of the network. -/

/-- A network access that did not go through.  A failed write must be taken not
to have happened. -/
inductive NetworkFault where
  /-- The address could not be set on the index register. -/
  | select (address : UInt32)
  /-- The data register could not be read. -/
  | read (address : UInt32)
  /-- The data register could not be written. -/
  | write (address : UInt32)
  deriving DecidableEq

namespace NetworkFault

/-- The network address of the access. -/
def address : NetworkFault → UInt32
  | select a | read a | write a => a

/-- The error text of a network access that did not go through. -/
def message : NetworkFault → String
  | select a => "failed to program SMN address " ++ Hex.marked a.toNat
  | read a => "failed to read SMN address " ++ Hex.marked a.toNat
  | write a => "failed to write SMN address " ++ Hex.marked a.toNat

end NetworkFault

end ManagementUnit
