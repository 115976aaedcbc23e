/-
  ManagementUnit.Driver.Start
  ────────────────────────────────
  Starting the driver: name the processor, check the bridge, find out what
  works.

  No register is touched before the processor has a name, and no mailbox before
  the bridge is known.  The power management mailbox must answer the version
  query; everything after that is optional and only narrows what the driver
  offers.
-/
import ManagementUnit.Driver.Settings
import ManagementUnit.Platform
import ManagementUnit.Table.Reader

namespace ManagementUnit

open Program (note)

/-! ## §1. The running driver. -/

/-- The driver of one machine. -/
structure Driver where
  processor : Processor
  settings : Settings
  mailboxes : Mailboxes
  table : TableReader
  firmware : Version
  capabilities : Capabilities

/-- Anything but vendor and devices known to lead to a management network is
refused. -/
def BridgeId.ensureKnown : Attempt Unit := do
  match ← (BridgeId.query : Program _) with
  | .error fault =>
    note (.bridgeUnreadable fault)
    Attempt.fail .unsupported
  | .ok id =>
    if id.isKnown then return ()
    else
      note (.bridgeUnknown id)
      Attempt.fail .unsupported

/-! ## §2. What works. -/

/-- The format identifier for the driver's capabilities: zero on a processor
that cannot tell one. -/
def Mailboxes.formatOrZero (m : Mailboxes) : Attempt UInt32 := ExceptT.mk do
  match ← m.tableFormat.run with
  | .error .unsupported => return .ok 0
  | answer => return answer

/-- Finds out whether the general purpose mailbox and the table work, the way a
first user would: version query, transfer, format query, first read.  The first
step that fails ends the search. -/
def Capabilities.detect (m : Mailboxes) : StateT TableReader Program Capabilities := do
  match ← ((m.version .rsmu).run : Program _) with
  | .error failure =>
    note (.generalPurposeSilent failure)
    return {}
  | .ok _ =>
    match ← (TableReader.transfer m).run with
    | .error failure =>
      note (.tableUnsupported failure)
      return { generalPurpose := true }
    | .ok () =>
      match ← (m.formatOrZero.run : Program _) with
      | .error failure =>
        note (.formatUnresolved failure)
        return { generalPurpose := true }
      | .ok format =>
        -- the transfer above is recent: another one follows only if the interval has passed
        match ← (TableReader.prepare m).run with
        | .error failure =>
          note (.tableUnreadable failure)
          return { generalPurpose := true }
        | .ok geometry =>
          note (.tableReadable geometry.totalLength)
          return {
            generalPurpose := true
            tableLength? := some geometry.totalLength
            tableFormat? := if format = 0 then none else some format }

/-! ## §3. Starting. -/

namespace Driver

/-- Names the processor or fails. -/
def identify : Attempt Processor :=
  ExceptT.mk (Except.mapError Failure.unidentified <$> Processor.query)

/-- Starts the driver. -/
def start (settings : Settings) : Attempt Driver := do
  let processor ← identify
  BridgeId.ensureKnown
  let mailboxes ← (Mailboxes.bind processor.codename settings.budget settings.window : Program _)
  let firmware ← (mailboxes.version .mp1).noting .versionFailed
  note (.firmwareVersion firmware)
  let reader : TableReader := { codename := processor.codename, interval := settings.interval }
  let (capabilities, table) ← ((Capabilities.detect mailboxes).run reader : Program _)
  note (.capabilitiesFound capabilities)
  return { processor, settings, mailboxes, table, firmware, capabilities }

/-! ## §4. Operations. -/

/-- A step on the driver's table. -/
def onTable {α : Type} (step : StateT TableReader Program α) : StateT Driver Program α := do
  let driver ← get
  let (a, table) ← (step.run driver.table : Program _)
  set { driver with table }
  return a

/-- The geometry of the table. -/
def tableGeometry : StateT Driver Program (Except Failure Geometry) := do
  onTable (TableReader.geometry (← get).mailboxes).run

/-- How many bytes a read of the table yields. -/
def tableLength : StateT Driver Program (Except Failure Nat) := do
  return (← tableGeometry).map Geometry.totalLength

/-- Copies the current table over the front of a buffer. -/
def readTable (buffer : Bytes) : StateT Driver Program (Except Failure Nat × Bytes) := do
  onTable (TableReader.read (← get).mailboxes buffer)

/-- Makes the firmware transfer a fresh table, however recent the last transfer
is. -/
def transferTable : StateT Driver Program (Except Failure Unit) := do
  onTable (TableReader.transfer (← get).mailboxes).run

/-- Gives the table's mappings back, for good. -/
def close : StateT Driver Program Unit := onTable TableReader.close

end Driver
end ManagementUnit
