/-
  ManagementUnit.Simulation.World
  ────────────────────────────────
  A whole simulated machine as a platform for the driver: processor, host
  bridge, management unit, memory and clock.

  Physical memory is made of blocks, with a record of what is mapped.  A range can be
  used if it lies inside one block; of several such blocks the one added first counts.
  Mapping shows the block itself, so bytes written after a range was mapped are seen
  through the mapping.

  The clock starts at zero and moves only when told to.  It counts nanoseconds in 64
  bits: a step is cut to what 64 bits hold, and the count wraps around.

  The firmware acts on a state of its own and on memory; which firmware runs is
  a parameter.

  Main results:
    * `getElem_load` — what is loaded is what the bytes at the place are.
-/
import ManagementUnit.Platform
import ManagementUnit.Simulation.Chip

namespace ManagementUnit.Simulation

/-! ## §1. Blocks. -/

/-- A stretch of physical memory. -/
structure Block where
  base : UInt64
  bytes : Bytes
  deriving DecidableEq

/-- The offset of a range in a block; `none` if it is not wholly inside. -/
def Block.offset? (b : Block) (address : UInt64) (length : Nat) : Option Nat :=
  if b.base ≤ address ∧ address.toNat - b.base.toNat + length ≤ b.bytes.length then
    some (address.toNat - b.base.toNat)
  else none

/-- `data` written over the bytes of a block from `offset` on. -/
def Block.put (b : Block) (offset : Nat) (data : Bytes) : Block :=
  { b with bytes := b.bytes.take offset ++ Bytes.overlay (b.bytes.drop offset) data }

/-- Simulated physical memory. -/
structure Memory where
  blocks : List Block := []
  /-- The ranges that are mapped now. -/
  live : List (Place × Nat) := []
  mapCalls : Nat := 0
  unmapCalls : Nat := 0
  /-- Whether every mapping is refused. -/
  refusing : Bool := false
  /-- The first use that made no sense. -/
  fault? : Option Fault := none
  deriving DecidableEq

namespace Memory

/-- Adds a block of zeros. -/
def addBlock (m : Memory) (base : UInt64) (length : Nat) : Memory :=
  { m with blocks := m.blocks ++ [⟨base, List.replicate length 0⟩] }

/-- The place of a range in the first block that holds it; blocks are numbered
from `i` on. -/
def locateFrom (i : Nat) (blocks : List Block) (address : UInt64) (length : Nat) :
    Option Place :=
  match blocks with
  | [] => none
  | b :: rest =>
    match b.offset? address length with
    | some offset => some ⟨i, offset⟩
    | none => locateFrom (i + 1) rest address length

/-- The place of a range in memory. -/
def locate? (m : Memory) (address : UInt64) (length : Nat) : Option Place :=
  locateFrom 0 m.blocks address length

/-- Writes bytes at a physical address. -/
def write (m : Memory) (address : UInt64) (data : Bytes) : Except Fault Memory :=
  match m.locate? address data.length with
  | some p => .ok { m with blocks := m.blocks.modify p.block fun b => b.put p.offset data }
  | none => .error (.noMemory address)

/-- Remembers a fault, unless there was one before. -/
def fail (m : Memory) (fault : Fault) : Memory := { m with fault? := m.fault?.or (some fault) }

/-- Writes bytes the way firmware does, whom nobody tells of a fault. -/
def store (m : Memory) (address : UInt64) (data : Bytes) : Memory :=
  match m.write address data with
  | .ok stored => stored
  | .error fault => m.fail fault

/-! ## §2. Mappings. -/

/-- Maps a range. -/
def map (m : Memory) (base : PhysicalAddress) (length : Nat) : Except MapError Place × Memory :=
  let called := { m with mapCalls := m.mapCalls + 1 }
  if m.refusing then (.error ⟨base, length⟩, called)
  else
    match m.locate? base.value length with
    | some p => (.ok p, { called with live := m.live ++ [(p, length)] })
    | none => (.error ⟨base, length⟩, called)

/-- Gives a mapped range back. -/
def unmap (m : Memory) (place : Place) (length : Nat) : Memory :=
  let called := { m with unmapCalls := m.unmapCalls + 1 }
  if (place, length) ∈ m.live then { called with live := m.live.erase (place, length) }
  else called.fail (.notMapped length)

/-- The byte at an offset from a place; zero outside the block. -/
def byteAt (m : Memory) (place : Place) (i : Nat) : UInt8 :=
  match m.blocks[place.block]? with
  | some b => b.bytes.getD (place.offset + i) 0
  | none => 0

/-- The bytes from a place on; what goes past the end of the block reads as
zero. -/
def load (m : Memory) (place : Place) (count : Nat) : Vector UInt8 count :=
  let bytes := match m.blocks[place.block]? with
    | some b => (b.bytes.drop place.offset).toArray
    | none => #[]
  Vector.ofFn fun i => bytes.getD i 0

/-- Loading shows the bytes one by one. -/
theorem getElem_load (m : Memory) (place : Place) (count i : Nat) (h : i < count) :
    (m.load place count)[i] = m.byteAt place i := by
  simp only [load, byteAt, Vector.getElem_ofFn]
  cases m.blocks[place.block]? with
  | none => rfl
  | some b => simp [List.getD_eq_getElem?_getD, List.getElem?_drop]

end Memory

/-! ## §3. The clock. -/

/-- A clock that is moved by hand. -/
structure Clock where
  nanos : UInt64 := 0
  deriving DecidableEq

namespace Clock

/-- What the clock shows. -/
def now (c : Clock) : Duration := ⟨c.nanos.toNat⟩

/-- Moves the clock on. -/
def advance (c : Clock) (step : Duration) : Clock :=
  ⟨c.nanos + UInt64.ofNat (min step.nanos 0xFFFFFFFFFFFFFFFF)⟩

end Clock

/-! ## §4. The machine. -/

/-- A simulated machine whose firmware has a state `η`. -/
structure World (η : Type) where
  signature : Signature := ⟨⟨0⟩, ⟨0⟩⟩
  bridge : Bridge := ⟨.standard, 0⟩
  chip : Chip := {}
  firmware : η
  memory : Memory := {}
  clock : Clock := {}
  /-- What the driver noted, latest first. -/
  notes : List Diagnostic := []

namespace World

variable {η : Type}

/-- The machine after a configuration write. -/
def writeBridge (firmware : Firmware (η × Memory)) (w : World η) (offset : UInt16)
    (value : UInt32) : Except BridgeFault Unit × World η :=
  match w.bridge.write firmware w.chip (w.firmware, w.memory) offset value with
  | (outcome, bridge, chip, state, memory) =>
    (outcome, { w with bridge, chip, firmware := state, memory })

/-- Answers the driver's requests. -/
def platform (firmware : Firmware (η × Memory)) : Platform (World η)
  | .identify leaf _, w => (w.signature.registers leaf, w)
  | .readBridge offset, w =>
    let (outcome, chip) := w.bridge.read w.chip offset
    (outcome, { w with chip })
  | .writeBridge offset value, w => w.writeBridge firmware offset value
  | .map base length, w =>
    let (outcome, memory) := w.memory.map base length
    (outcome, { w with memory })
  | .unmap place length, w => ((), { w with memory := w.memory.unmap place length })
  | .load place count, w => (w.memory.load place count, w)
  | .now, w => (w.clock.now, w)
  | .note diagnostic, w => ((), { w with notes := diagnostic :: w.notes })

end World

end ManagementUnit.Simulation
