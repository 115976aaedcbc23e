/-
  ManagementUnit.Table.Scheme
  ────────────────────────────────
  Where the power table lies, and how each processor generation finds, measures and
  transfers it.

  The firmware keeps a table of measurements in main memory.  It is one region of
  memory, or two that are read one after the other, and nothing of this changes after
  the machine has started.

  Three commands matter: one that tells where the table lies, one that tells its
  format, and one that makes the firmware transfer fresh values.  They differ between
  generations, and a generation may lack any of them.
-/
import ManagementUnit.Memory.Address
import ManagementUnit.Processor.Codename

namespace ManagementUnit

/-! ## §1. Where the table lies. -/

/-- The base addresses that the firmware reports. -/
structure TableLocation where
  primary : PhysicalAddress
  /-- The base of the second region of a table in two parts. -/
  secondary? : Option PhysicalAddress
  deriving DecidableEq

/-- A stretch of physical memory. -/
structure Extent where
  base : PhysicalAddress
  length : Nat
  deriving DecidableEq

/-- The regions of the table and the format its length was taken from. -/
structure Geometry where
  primary : Extent
  secondary? : Option Extent
  /-- The format identifier; zero if the length does not depend on one. -/
  format : UInt32
  deriving DecidableEq

namespace Geometry

/-- How many bytes a read of the table yields. -/
def totalLength (g : Geometry) : Nat :=
  g.primary.length + match g.secondary? with
    | some e => e.length
    | none => 0

end Geometry

/-! ## §2. Commands and lengths. -/

/-- The commands that tell where the table lies. -/
inductive LocationQuery where
  /-- One command with two ones as arguments; it answers with a 64-bit address
  in its first two words. -/
  | combined (opcode : UInt32)
  /-- Two commands without arguments; the second one answers with a 32-bit
  address. -/
  | indirect
  /-- Five commands that yield two 32-bit addresses. -/
  | split
  deriving DecidableEq

/-- How long the table is. -/
inductive Layout where
  /-- One region; its length goes by the format identifier. -/
  | versioned (lengths : List (UInt32 × Nat))
  /-- Two regions of fixed length. -/
  | split (primary secondary : Nat)
  deriving DecidableEq

namespace Layout

/-- The length of the whole table in a given format; `none` for an unknown one.
Two regions of fixed length have every format. -/
def totalLength? (l : Layout) (format : UInt32) : Option Nat :=
  match l with
  | versioned lengths => lengths.lookup format
  | split primary secondary => some (primary + secondary)

end Layout

/-- The command that makes the firmware transfer a fresh table. -/
structure TransferCommand where
  opcode : UInt32
  argument : UInt32
  deriving DecidableEq

/-- How table access works on one generation; what a generation lacks is
`none`. -/
structure Scheme where
  location? : Option LocationQuery
  /-- The opcode of the query for the format identifier. -/
  format? : Option UInt32
  layout? : Option Layout
  transfer? : Option TransferCommand
  deriving DecidableEq

/-- Whether the table can be found, measured and brought up to date. -/
def Scheme.isComplete (s : Scheme) : Bool :=
  s.location?.isSome && s.layout?.isSome && s.transfer?.isSome

/-! ## §3. The schemes of the generations. -/

namespace Codename

/-- How a generation tells where its table lies. -/
def locationQuery? : Codename → Option LocationQuery
  | vermeer | matisse | castlePeak | milan => some (.combined 0x06)
  | renoir | cezanne => some (.combined 0x66)
  | colfax | pinnacleRidge => some .indirect
  | dali | picasso | ravenRidge | ravenRidge2 => some .split
  | _ => none

/-- The opcode with which a generation tells the format of its table. -/
def formatQuery? : Codename → Option UInt32
  | ravenRidge | picasso => some 0x0C
  | matisse | vermeer | milan => some 0x08
  | renoir | cezanne => some 0x06
  | _ => none

/-- How long the table of a generation is. -/
def layout? : Codename → Option Layout
  | matisse => some (.versioned
      [(0x00240902, 0x514), (0x00240903, 0x518), (0x00240802, 0x7E0), (0x00240803, 0x7E4)])
  | vermeer => some (.versioned
      [(0x002D0903, 0x594), (0x00380904, 0x5A4), (0x00380905, 0x5D0), (0x002D0803, 0x894),
        (0x00380804, 0x8A4), (0x00380805, 0x8F0)])
  | milan => some (.versioned [(0x002D0008, 0x1AB0)])
  | renoir => some (.versioned
      [(0x00370000, 0x794), (0x00370001, 0x884), (0x00370002, 0x88C), (0x00370003, 0x88C),
        (0x00370004, 0x8AC), (0x00370005, 0x8C8)])
  | cezanne => some (.versioned [(0x00400005, 0x944)])
  | picasso | ravenRidge | ravenRidge2 => some (.split 0x608 0xA4)
  | _ => none

/-- The transfer command of a generation. -/
def transferCommand? : Codename → Option TransferCommand
  | matisse | vermeer | milan => some ⟨0x05, 0⟩
  | cezanne => some ⟨0x65, 0⟩
  | renoir => some ⟨0x65, 3⟩
  | picasso | ravenRidge | ravenRidge2 => some ⟨0x3D, 3⟩
  | _ => none

/-- How table access works on a generation. -/
def scheme (c : Codename) : Scheme where
  location? := c.locationQuery?
  format? := c.formatQuery?
  layout? := c.layout?
  transfer? := c.transferCommand?

/-- The length of a generation's table in a given format. -/
def tableLength? (c : Codename) (format : UInt32) : Option Nat :=
  c.layout?.bind fun l => l.totalLength? format

end Codename

end ManagementUnit
