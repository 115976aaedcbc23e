/-
  ManagementUnit.Simulation.Recorder
  ────────────────────────────────
  Small platforms for one part of the driver: a host bridge that records each
  configuration access, and a processor that records each identification query.

  The bridge has two spaces of words.  Its data register stands for the word of the
  second space whose address is in the index register; every other offset is a
  word of the first space.  Accesses to chosen offsets can be made to fault; a
  faulting access changes nothing.
-/
import ManagementUnit.Platform
import ManagementUnit.Simulation.Chip

namespace ManagementUnit.Simulation

/-! ## §1. A recording bridge. -/

/-- A configuration access and how it went. -/
inductive BridgeAccess where
  | read (offset : UInt16) (value : UInt32)
  | write (offset : UInt16) (value : UInt32)
  | readFault (offset : UInt16)
  | writeFault (offset : UInt16) (value : UInt32)
  deriving DecidableEq

/-- A host bridge that records accesses. -/
structure RecordingBridge where
  window : Window
  configuration : Sparse UInt16 UInt32 := .empty
  network : Sparse UInt32 UInt32 := .empty
  faultyReads : List UInt16 := []
  faultyWrites : List UInt16 := []
  /-- The accesses so far, latest first. -/
  accesses : List BridgeAccess := []
  /-- What was noted, latest first. -/
  notes : List Diagnostic := []

namespace RecordingBridge

/-- Records an access. -/
def record (b : RecordingBridge) (access : BridgeAccess) : RecordingBridge :=
  { b with accesses := access :: b.accesses }

/-- The network address in the index register. -/
def index (b : RecordingBridge) : UInt32 := b.configuration.get b.window.index

/-- The word at an offset. -/
def word (b : RecordingBridge) (offset : UInt16) : UInt32 :=
  if offset = b.window.data then b.network.get b.index else b.configuration.get offset

/-- The bridge with a word of its own configuration space set. -/
def configure (b : RecordingBridge) (offset : UInt16) (value : UInt32) : RecordingBridge :=
  { b with configuration := b.configuration.set offset value }

/-- The bridge with the word at an offset set. -/
def setWord (b : RecordingBridge) (offset : UInt16) (value : UInt32) : RecordingBridge :=
  if offset = b.window.data then { b with network := b.network.set b.index value }
  else b.configure offset value

/-- Answers the requests that reach a bridge; there is nothing else here. -/
def platform : Platform RecordingBridge
  | .readBridge offset, b =>
    if offset ∈ b.faultyReads then (.error ⟨offset⟩, b.record (.readFault offset))
    else (.ok (b.word offset), b.record (.read offset (b.word offset)))
  | .writeBridge offset value, b =>
    if offset ∈ b.faultyWrites then (.error ⟨offset⟩, b.record (.writeFault offset value))
    else (.ok (), (b.setWord offset value).record (.write offset value))
  | .note diagnostic, b => ((), { b with notes := diagnostic :: b.notes })
  | .identify .., b => ({}, b)
  | .map base length, b => (.error ⟨base, length⟩, b)
  | .unmap .., b => ((), b)
  | .load _ count, b => (Vector.replicate count 0, b)
  | .now, b => (⟨0⟩, b)

end RecordingBridge

/-! ## §2. A recording processor. -/

/-- What a processor answers at one leaf and subleaf. -/
structure LeafAnswer where
  leaf : UInt32
  subleaf : UInt32
  registers : Registers
  deriving DecidableEq

/-- A processor that records what it is asked. -/
structure RecordingProcessor where
  answers : List LeafAnswer
  /-- The leaves and subleaves asked for so far, latest first. -/
  queries : List (UInt32 × UInt32) := []
  /-- What was noted, latest first. -/
  notes : List Diagnostic := []

namespace RecordingProcessor

/-- The registers at a leaf and subleaf: the first answer listed for them, or
zeros. -/
def registers (p : RecordingProcessor) (leaf subleaf : UInt32) : Registers :=
  match p.answers.find? fun a => a.leaf == leaf && a.subleaf == subleaf with
  | some a => a.registers
  | none => {}

/-- Answers the requests that reach a processor; there is nothing else here. -/
def platform : Platform RecordingProcessor
  | .identify leaf subleaf, p =>
    (p.registers leaf subleaf, { p with queries := (leaf, subleaf) :: p.queries })
  | .note diagnostic, p => ((), { p with notes := diagnostic :: p.notes })
  | .readBridge offset, p => (.error ⟨offset⟩, p)
  | .writeBridge offset _, p => (.error ⟨offset⟩, p)
  | .map base length, p => (.error ⟨base, length⟩, p)
  | .unmap .., p => ((), p)
  | .load _ count, p => (Vector.replicate count 0, p)
  | .now, p => (⟨0⟩, p)

end RecordingProcessor
end ManagementUnit.Simulation
