/-
  ManagementUnit.Session.Basic
  ────────────────────────────────
  Using the driver through its endpoints.

  A session keeps three things between writes: the argument words that the next
  command runs with, the response code of the last command, and the result of
  the last network access.  Both command endpoints share them.  A command that
  succeeds leaves its answer as the arguments of the next one.
-/
import ManagementUnit.Driver.Start
import ManagementUnit.Session.Endpoint

namespace ManagementUnit

open Program (note)

/-! ## §1. State. -/

/-- What a session keeps between writes. -/
structure Slots where
  arguments : Arguments := .zero
  /-- The response code of the last command. -/
  response : UInt32 := ResponseCode.ok
  /-- The word of the last network read, or the response code of the last
  network write. -/
  networkResult : UInt32 := 0
  deriving DecidableEq

/-- A user of the driver. -/
structure Session where
  driver : Driver
  slots : Slots

/-- A step of a session. -/
abbrev SessionStep (α : Type) := StateT Session Program α

namespace Session

/-- A new session on a running driver. -/
def start (driver : Driver) : Session := ⟨driver, {}⟩

/-- Whether an endpoint is present. -/
def isPresent (s : Session) (e : Endpoint) : Bool := e.isPresent s.driver.capabilities

/-- The endpoints that are present. -/
def endpoints (s : Session) : List Endpoint := Endpoint.all.filter s.isPresent

/-- A step on the driver alone. -/
def onDriver {α : Type} (step : StateT Driver Program α) : SessionStep α := do
  let session ← get
  let (a, driver) ← (step.run session.driver : Program _)
  set { session with driver }
  return a

/-- Changes what is kept. -/
def modifySlots (f : Slots → Slots) : SessionStep Unit :=
  modify fun s => { s with slots := f s.slots }

/-! ## §2. Reading endpoints. -/

/-- The value of an endpoint; `none` for the table itself, which has to be
fetched. -/
def rendering? (s : Session) : Endpoint → Option Rendering
  | .driverVersion => some (.line [interfaceVersion])
  | .firmwareVersion => some (.line s.driver.firmware.pieces)
  | .revision =>
    let ordinal? := s.driver.processor.codename.revision?.map Revision.ordinal
    some (.line [Decimal.digits (ordinal?.getD 0)])
  | .codename => some (.line (Decimal.filledPieces 2 s.driver.processor.codename.ordinal))
  | .arguments => some (.binary s.slots.arguments.toBytes)
  | .mp1Command | .rsmuCommand => some (.binary (Word.toBytes s.slots.response))
  | .network => some (.binary (Word.toBytes s.slots.networkResult))
  | .tableLength => some (.binary (LongWord.toBytes (s.driver.capabilities.tableLength?.getD 0)))
  | .tableFormat => some (.binary (Word.toBytes (s.driver.capabilities.tableFormat?.getD 0)))
  | .table => none

/-- Writes the value of an endpoint over the front of a buffer.  Gives the number
of bytes written, or an error, and the buffer afterwards. -/
def read (e : Endpoint) (buffer : Bytes) : SessionStep (Except EndpointError Nat × Bytes) := do
  let session ← get
  if session.isPresent e then
    match session.rendering? e with
    | some rendering =>
      -- the buffer may have changed even if the value did not fit
      let (fitted, filled) := rendering.put buffer
      if fitted then return (.ok rendering.bytes.length, filled)
      else return (.error (.bufferTooSmall e), filled)
    | none =>
      let (outcome, filled) ← onDriver (Driver.readTable buffer)
      return (outcome.mapError .driver, filled)
  else return (.error (.unavailable e), buffer)

/-! ## §3. Commands and network accesses. -/

/-- Runs a command with the kept arguments.  Gives its response code, which is
also kept. -/
def command (channel : Channel) (opcode : UInt32) : SessionStep UInt32 := do
  let session ← get
  let outcome ←
    ((session.driver.mailboxes.execute channel opcode session.slots.arguments).run : Program _)
  match outcome with
  | .ok words =>
    modifySlots fun slots => { slots with arguments := words, response := ResponseCode.ok }
    return ResponseCode.ok
  | .error failure =>
    -- the arguments stay, so that the same command can be tried again
    note (.commandFailed channel opcode failure)
    let code := failure.responseCode?.getD ResponseCode.failed
    modifySlots fun slots => { slots with response := code }
    return code

/-- Makes a network access.  A read that fails leaves the kept result as it
is. -/
def access : NetworkAccess → SessionStep Unit
  | .read address => do
    match ← (((← get).driver.mailboxes.readWord address).run : Program _) with
    | .ok value => modifySlots fun slots => { slots with networkResult := value }
    | .error failure => note (.networkReadFailed address failure)
  | .write address value => do
    let code := match ← (((← get).driver.mailboxes.writeWord address value).run : Program _) with
      | .ok () => ResponseCode.ok
      | .error failure => failure.responseCode?.getD ResponseCode.busFailed
    modifySlots fun slots => { slots with networkResult := code }

/-! ## §4. Writing endpoints. -/

/-- What a write to an endpoint asks for. -/
inductive Action where
  | setArguments (arguments : Arguments)
  | command (channel : Channel) (opcode : UInt32)
  | access (access : NetworkAccess)
  deriving DecidableEq

/-- The action that bytes written to an endpoint ask for. -/
def Action.parse (e : Endpoint) (input : Bytes) : Except EndpointError Action :=
  let sized (action? : Option Action) := match action? with
    | some action => .ok action
    | none => .error (.invalidSize e input.length)
  match e with
  | .arguments => sized ((Arguments.ofBytes? input).map .setArguments)
  | .mp1Command => sized ((Opcode.ofBytes? input).map (.command .mp1))
  | .rsmuCommand => sized ((Opcode.ofBytes? input).map (.command .rsmu))
  | .network => sized ((NetworkAccess.ofBytes? input).map .access)
  | _ => .error (.readOnly e)

/-- Does what a write asks for. -/
def perform : Action → SessionStep Unit
  | .setArguments arguments => modifySlots fun slots => { slots with arguments }
  | .command channel opcode => do
    let _ ← command channel opcode
  | .access a => access a

/-- Writes bytes to an endpoint.  Gives the number of bytes consumed; a command
that fails consumes its bytes as well. -/
def write (e : Endpoint) (input : Bytes) : SessionStep (Except EndpointError Nat) := do
  if (← get).isPresent e then
    match Action.parse e input with
    | .error error => return .error error
    | .ok action =>
      perform action
      return .ok input.length
  else return .error (.unavailable e)

end Session
end ManagementUnit
