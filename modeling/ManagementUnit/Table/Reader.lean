/-
  ManagementUnit.Table.Reader
  ────────────────────────────────
  Finding and reading the power table of one processor.

  The firmware is asked where the table lies and in which format it is.  All of
  this goes to the general purpose mailbox, and the first request that fails ends the
  query.  The geometry is asked for once and its regions are mapped once; both are
  kept.

  A read makes the firmware transfer a fresh table unless the last transfer is
  recent enough.  `close` gives the mappings back, for good: a closed table is
  never mapped again.
-/
import ManagementUnit.Mailbox.Transaction

namespace ManagementUnit

open Program (request note)

/-! ## §1. Asking for the table. -/

namespace Mailboxes

/-- Sends a table command. -/
def send (m : Mailboxes) (opcode : UInt32) (arguments : Arguments) : Attempt Arguments :=
  m.execute .rsmu opcode arguments

/-- Runs a location query. -/
def runLocationQuery (m : Mailboxes) : LocationQuery → Attempt TableLocation
  | .combined opcode => do
    let words ← m.send opcode (Arguments.pair 1 1)
    return ⟨PhysicalAddress.ofHalves words.word0 words.word1, none⟩
  | .indirect => do
    let _ ← m.send 0x0B Arguments.zero
    let words ← m.send 0x0C Arguments.zero
    return ⟨PhysicalAddress.ofWord words.word0, none⟩
  | .split => do
    let _ ← m.send 0x0A (Arguments.first 3)
    let primary ← m.send 0x0B (Arguments.first 3)
    let _ ← m.send 0x3D (Arguments.first 3)
    let _ ← m.send 0x0A (Arguments.first 5)
    let secondary ← m.send 0x0B (Arguments.first 5)
    return ⟨PhysicalAddress.ofWord primary.word0, some (PhysicalAddress.ofWord secondary.word0)⟩

/-- The base addresses of the table. -/
def tableLocation (m : Mailboxes) : Attempt TableLocation := do
  let query ← Attempt.require m.codename.locationQuery?
  (m.runLocationQuery query).noting .locationFailed

/-- The format identifier of the table. -/
def tableFormat (m : Mailboxes) : Attempt UInt32 := do
  let opcode ← Attempt.require m.codename.formatQuery?
  let words ← m.send opcode Arguments.zero
  return words.word0

/-- The regions that a location stands for under a layout, given the format
query for a length that depends on it. -/
def measure (m : Mailboxes) (location : TableLocation) : Layout → Attempt Geometry
  | .versioned lengths => do
    let format ← m.tableFormat.noting .formatFailed
    match lengths.lookup format with
    | none =>
      note (.formatUnknown format)
      Attempt.fail .unsupported
    | some length => return ⟨⟨location.primary, length⟩, none, format⟩
  | .split primary secondary =>
    -- a single location holds the two bases in its halves
    let bases := match location.secondary? with
      | some base => (location.primary, base)
      | none => (PhysicalAddress.ofWord location.primary.low,
          PhysicalAddress.ofWord location.primary.high)
    return ⟨⟨bases.1, primary⟩, some ⟨bases.2, secondary⟩, 0⟩

/-- Finds and measures the table.  A processor without a location query or
without a layout fails before any command is sent. -/
def tableGeometry (m : Mailboxes) : Attempt Geometry := do
  let query ← Attempt.require m.codename.locationQuery?
  let layout ← Attempt.require m.codename.layout?
  let location ← (m.runLocationQuery query).noting .locationFailed
  let geometry ← m.measure location layout
  note (.tableLocated geometry)
  return geometry

end Mailboxes

/-! ## §2. What is kept between reads. -/

/-- The mapped regions of the table. -/
structure TableMapping where
  primary : Region
  secondary? : Option Region
  deriving DecidableEq

/-- Access to the power table of one processor. -/
structure TableReader where
  codename : Codename
  /-- A transfer is recent if it is at most this long ago. -/
  interval : Duration
  /-- The geometry, once it was found. -/
  located? : Option Geometry := none
  /-- When the last successful transfer was. -/
  transferredAt? : Option Duration := none
  /-- The regions, once they were mapped. -/
  mapping? : Option TableMapping := none
  /-- Whether the table was closed. -/
  closed : Bool := false
  deriving DecidableEq

/-- A step on a table that may fail; what it changed before it failed stays
changed. -/
abbrev TableStep (α : Type) := ExceptT Failure (StateT TableReader Program) α

namespace TableStep

variable {α : Type}

/-- An attempt that leaves the table as it is. -/
def ofAttempt (attempt : Attempt α) : TableStep α := ExceptT.mk (StateT.lift attempt.run)

end TableStep

namespace TableMapping

/-- Maps the regions of a geometry.  If the second one cannot be mapped, the
first one is given back. -/
def establish (g : Geometry) : Attempt TableMapping := ExceptT.mk do
  match ← Region.map g.primary.base g.primary.length with
  | .error error =>
    note (.primaryUnmapped error)
    return .error (.unmapped error)
  | .ok primary =>
    match g.secondary? with
    | none => return .ok ⟨primary, none⟩
    | some extent =>
      match ← Region.map extent.base extent.length with
      | .ok secondary => return .ok ⟨primary, some secondary⟩
      | .error error =>
        note (.secondaryUnmapped error)
        -- all or nothing: the next attempt maps both again
        primary.release
        return .error (.unmapped error)

/-- Copies the regions over the front of a buffer, one after the other. -/
def copyInto (mapping : TableMapping) (buffer : Bytes) : Program Bytes := do
  let filled ← mapping.primary.copyInto buffer
  match mapping.secondary? with
  | none => return filled
  | some secondary =>
    -- the second region goes behind what the first one filled
    let copied := mapping.primary.reach buffer.length
    let rest ← secondary.copyInto (filled.drop copied)
    return filled.take copied ++ rest

/-- Gives the regions back. -/
def release (mapping : TableMapping) : Program Unit := do
  mapping.primary.release
  match mapping.secondary? with
  | none => return ()
  | some secondary => secondary.release

end TableMapping

namespace TableReader

/-! ## §3. Steps. -/

/-- The geometry of the table, asked for only if it is not known yet. -/
def geometry (m : Mailboxes) : TableStep Geometry := do
  match (← get).located? with
  | some geometry => return geometry
  | none =>
    let geometry ← TableStep.ofAttempt m.tableGeometry
    modify fun t => { t with located? := some geometry }
    return geometry

/-- Sends the transfer command. -/
def sendTransfer (m : Mailboxes) : TableStep Unit := do
  let command ← TableStep.ofAttempt (Attempt.require (← get).codename.transferCommand?)
  let _ ← TableStep.ofAttempt (m.send command.opcode (Arguments.first command.argument))
  note .tableTransferred

/-- Makes the firmware transfer a fresh table. -/
def transfer (m : Mailboxes) : TableStep Unit := do
  sendTransfer m
  -- a transfer that was asked for counts from its end
  let now ← (request .now : Program _)
  modify fun t => { t with transferredAt? := some now }

/-- Whether the last transfer is recent enough at a given time. -/
def isFresh (t : TableReader) (now : Duration) : Bool :=
  match t.transferredAt? with
  | some last => now.since last ≤ t.interval
  | none => false

/-- Makes the firmware transfer a fresh table unless the last transfer is recent
enough.  Tells whether a command was sent. -/
def transferIfDue (m : Mailboxes) : TableStep Bool := do
  let now ← (request .now : Program _)
  if (← get).isFresh now then return false
  else
    sendTransfer m
    -- one that fell due counts from when that was found out
    modify fun t => { t with transferredAt? := some now }
    return true

/-- The mapped regions, established only if they are not yet. -/
def mapping (g : Geometry) : TableStep TableMapping := do
  match (← get).mapping? with
  | some mapping => return mapping
  | none =>
    let mapping ← TableStep.ofAttempt (TableMapping.establish g)
    modify fun t => { t with mapping? := some mapping }
    return mapping

/-- Fails if the table was closed. -/
def ensureOpen : TableStep Unit := do
  if (← get).closed then
    note .tableClosed
    throw .unsupported

/-- Fails if a buffer of `room` bytes cannot hold the table. -/
def ensureRoom (g : Geometry) (room : Nat) : TableStep Unit := do
  if room < g.totalLength then
    note (.bufferTooShort room g.totalLength)
    throw (.shortBuffer g.totalLength)

/-! ## §4. Operations. -/

/-- Everything a read does before it copies: geometry, transfer if due,
mapping. -/
def prepare (m : Mailboxes) : TableStep Geometry := do
  ensureOpen
  let geometry ← geometry m
  let _ ← transferIfDue m
  let _ ← mapping geometry
  return geometry

/-- What a read does before it copies, with the room for the table checked as
soon as its length is known. -/
def prepareFor (m : Mailboxes) (room : Nat) : TableStep (Geometry × TableMapping) := do
  ensureOpen
  let geometry ← geometry m
  ensureRoom geometry room
  let _ ← transferIfDue m
  let mapping ← mapping geometry
  return (geometry, mapping)

/-- Copies the current table over the front of a buffer.  Gives the length of
the table, or a failure, and the buffer afterwards. -/
def read (m : Mailboxes) (buffer : Bytes) :
    StateT TableReader Program (Except Failure Nat × Bytes) := do
  match ← (prepareFor m buffer.length).run with
  | .error failure => return (.error failure, buffer)
  | .ok (geometry, mapping) =>
    let filled ← (mapping.copyInto buffer : Program _)
    return (.ok geometry.totalLength, filled)

/-- Gives the mappings back and keeps the table from being read again. -/
def close : StateT TableReader Program Unit := do
  let mapping? := (← get).mapping?
  modify fun t => { t with closed := true, mapping? := none }
  match mapping? with
  | none => return ()
  | some mapping =>
    mapping.release
    note .tableReleased

end TableReader

end ManagementUnit
