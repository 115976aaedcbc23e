/-
  ManagementUnit.Simulation.Bench
  ────────────────────────────────
  A test bench: one simulated machine, firmware that is told in advance how to answer,
  and the parts of the driver that were put on the machine.

  Each opcode of a mailbox can have a handler.  A handler may remember how often
  it ran, and it may write to memory, the way firmware does when it transfers a
  table.

  All parts share the management unit, memory and clock; mailboxes and a driver
  have a host bridge of their own each.  A step names what it needs, and fails
  without changing anything if that is not there or if the hardware was used in
  a way that makes no sense.
-/
import ManagementUnit.Session.Basic
import ManagementUnit.Simulation.World

namespace ManagementUnit.Simulation

/-! ## §1. Handlers. -/

/-- How a command is answered. -/
inductive Handler where
  /-- Leaves the words as they are. -/
  | keep (status : UInt32)
  /-- Replaces the words. -/
  | reply (status : UInt32) (words : Arguments)
  /-- Adds a number to every word. -/
  | add (status : UInt32) (number : UInt32)
  /-- Replaces the first word by what a list has for it, or by a default. -/
  | select (status : UInt32) (answers : List (UInt32 × UInt32)) (otherwise : UInt32)
  /-- Counts its runs in a byte and fills a range of memory with it. -/
  | stamp (status : UInt32) (address : UInt64) (length : Nat) (runs : UInt8)
  /-- Runs one of several handlers, the next one each time; the last one stays. -/
  | sequence (handlers : List Handler) (runs : Nat)

/-- What a handler makes of a command: the answer, the handler for the next time,
and memory. -/
structure Handled where
  answer : Answer
  handler : Handler
  memory : Memory

mutual

/-- Runs a handler. -/
def Handler.run (h : Handler) (words : Arguments) (memory : Memory) : Handled :=
  match h with
  | .keep status => ⟨⟨status, words⟩, h, memory⟩
  | .reply status fixed => ⟨⟨status, fixed⟩, h, memory⟩
  | .add status number => ⟨⟨status, words.map (· + number)⟩, h, memory⟩
  | .select status answers otherwise =>
    ⟨⟨status, words.withWord0 ((answers.lookup words.word0).getD otherwise)⟩, h, memory⟩
  | .stamp status address length runs =>
    let runs := runs + 1
    ⟨⟨status, words⟩, .stamp status address length runs,
      memory.store address (List.replicate length runs)⟩
  | .sequence handlers runs =>
    let (answer, handlers, memory) := Handler.runNth handlers runs words memory
    ⟨answer, .sequence handlers (runs + 1), memory⟩

/-- Runs handler number `n` of a list, or the last one if the list is not that
long.  No handler at all is success with the words as they are. -/
def Handler.runNth (handlers : List Handler) (n : Nat) (words : Arguments) (memory : Memory) :
    Answer × List Handler × Memory :=
  match handlers, n with
  | [], _ => (⟨ResponseCode.ok, words⟩, [], memory)
  | [h], _ =>
    let handled := Handler.run h words memory
    (handled.answer, [handled.handler], handled.memory)
  | h :: rest, 0 =>
    let handled := Handler.run h words memory
    (handled.answer, handled.handler :: rest, handled.memory)
  | h :: rest, n + 1 =>
    let (answer, rest, memory) := Handler.runNth rest n words memory
    (answer, h :: rest, memory)

end

/-! ## §2. Scripts. -/

/-- A handler and the command it is for. -/
structure Rule where
  mailbox : UInt32
  opcode : UInt32
  handler : Handler

/-- The handlers of all mailboxes; the first one for a command counts. -/
abbrev Script := List Rule

namespace Script

/-- The script with one more handler, which replaces an older one for the same
command. -/
def add (s : Script) (mailbox opcode : UInt32) (handler : Handler) : Script :=
  ⟨mailbox, opcode, handler⟩ :: s.filter fun r => !(r.mailbox == mailbox && r.opcode == opcode)

/-- Answers a command by its handler. -/
def answer (mailbox opcode : UInt32) (words : Arguments) :
    Script × Memory → Option Answer × Script × Memory
  | ([], memory) => (none, [], memory)
  | (r :: rest, memory) =>
    if r.mailbox = mailbox ∧ r.opcode = opcode then
      let handled := r.handler.run words memory
      (some handled.answer, { r with handler := handled.handler } :: rest, handled.memory)
    else
      let (found?, rest, memory) := answer mailbox opcode words (rest, memory)
      (found?, r :: rest, memory)

/-- The firmware that follows a script. -/
def firmware : Firmware (Script × Memory) := answer

end Script

/-! ## §3. The bench. -/

/-- A part of the driver and the bridge that it goes through. -/
structure Wired (α : Type) where
  part : α
  bridge : Bridge

/-- A simulated machine with parts of the driver on it. -/
structure Bench where
  codename : Codename
  world : World Script
  /-- The mapped regions by number; a released one leaves its place empty. -/
  regions : List (Option Region) := []
  mailboxes? : Option (Wired Mailboxes) := none
  table? : Option TableReader := none
  driver? : Option (Wired Driver) := none
  session? : Option Slots := none

/-- What a step can be missing. -/
inductive Part where
  | mailbox
  | table
  | context
  | session
  | region
  | signature
  deriving DecidableEq

/-- What a missing part is called. -/
def Part.name : Part → String
  | mailbox => "mailbox"
  | table => "table"
  | context => "context"
  | session => "session"
  | region => "region"
  | signature => "signature"

/-- Why a step could not be made. -/
inductive StepError where
  | missing (part : Part)
  | fault (fault : Fault)
  deriving DecidableEq

/-- The error text of a step that could not be made. -/
def StepError.message : StepError → String
  | missing part => "no " ++ part.name
  | fault f => f.message

/-- A step on the bench.  A step that fails leaves the bench as it was. -/
abbrev BenchStep (α : Type) := StateT Bench (Except StepError) α

namespace Bench

variable {α : Type}

/-- A bench with the mailboxes of a generation attached, or with none. -/
def new (codename : Codename) (attached : Bool) : Bench where
  codename
  world :=
    { firmware := []
      chip := if attached then Chip.attachAll {} codename else {} }

/-- Something that must be there for a step. -/
def need (part : Part) : Option α → BenchStep α
  | some a => return a
  | none => throw (.missing part)

/-- A step that may be a use of the hardware that makes no sense. -/
def allow : Except Fault α → BenchStep α
  | .ok a => return a
  | .error f => throw (.fault f)

/-! ## §4. Hardware. -/

/-- Changes the machine. -/
def onWorld (f : World Script → World Script) : BenchStep Unit :=
  modify fun b => { b with world := f b.world }

/-- Changes the management unit. -/
def onChip (f : Chip → Chip) : BenchStep Unit := onWorld fun w => { w with chip := f w.chip }

/-- Changes memory. -/
def onMemory (f : Memory → Memory) : BenchStep Unit :=
  onWorld fun w => { w with memory := f w.memory }

/-- Changes the mailbox with a given command register. -/
def adjustMailbox (command : UInt32) (f : Mailbox → Mailbox) : BenchStep Unit := do
  let chip ← allow ((← get).world.chip.adjust command f)
  onChip fun _ => chip

/-- Gives a command of a mailbox a handler. -/
def addHandler (command opcode : UInt32) (handler : Handler) : BenchStep Unit := do
  adjustMailbox command id
  onWorld fun w => { w with firmware := Script.add w.firmware command opcode handler }

/-- Writes to memory. -/
def writeMemory (address : UInt64) (data : Bytes) : BenchStep Unit := do
  let memory ← allow ((← get).world.memory.write address data)
  onMemory fun _ => memory

/-- Moves the clock on and gives the time. -/
def advanceClock (step : Duration) : BenchStep Duration := do
  onWorld fun w => { w with clock := w.clock.advance step }
  return (← get).world.clock.now

/-- The command register that stands for a mailbox of the machine's
generation; zero if there is none. -/
def commandRegister (b : Bench) (channel : Channel) : UInt32 :=
  ((b.codename.registers? channel).map RegisterBlock.command).getD 0

/-! ## §5. Running programs. -/

/-- Runs a program of the driver through a bridge.  Gives its answer and the
bridge afterwards. -/
def runThrough (bridge : Bridge) (program : Program α) : BenchStep (α × Bridge) := do
  let b ← get
  let (a, world) := program.run (World.platform Script.firmware) { b.world with bridge }
  -- a program that runs into a fault counts as not run
  match world.memory.fault? with
  | some f => throw (.fault f)
  | none =>
    set { b with world }
    return (a, world.bridge)

/-- Runs a program that does not go through a bridge. -/
def runAside (program : Program α) : BenchStep α := do
  let (a, _) ← runThrough ⟨.standard, 0⟩ program
  return a

/-- Maps a region.  Gives its number with it. -/
def mapRegion (base : PhysicalAddress) (length : Nat) :
    BenchStep (Except MapError (Nat × Region)) := do
  match ← runAside (Region.map base length) with
  | .error e => return .error e
  | .ok region =>
    let number := (← get).regions.length
    modify fun b => { b with regions := b.regions ++ [some region] }
    return .ok (number, region)

/-- The mapped region with a number. -/
def region (number : Nat) : BenchStep Region := do
  need .region ((← get).regions[number]?.join)

/-- Copies a region over the front of a buffer.  Gives the number of bytes
copied and the buffer afterwards. -/
def copyRegion (number : Nat) (buffer : Bytes) : BenchStep (Nat × Bytes) := do
  let region ← region number
  let filled ← runAside (region.copyInto buffer)
  return (region.reach buffer.length, filled)

/-- Gives a region back. -/
def releaseRegion (number : Nat) : BenchStep Unit := do
  let region ← region number
  runAside region.release
  modify fun b => { b with regions := b.regions.set number none }

/-! ## §6. Mailboxes and table. -/

/-- Puts mailboxes on the bench, with a new bridge. -/
def newMailboxes (codename : Codename) (budget : Nat) (window bridgeWindow : Window) :
    BenchStep Unit := do
  let (part, bridge) ←
    runThrough ⟨bridgeWindow, 0⟩ (Mailboxes.bind codename budget window)
  modify fun b => { b with mailboxes? := some ⟨part, bridge⟩ }

/-- Binds other mailboxes through the same bridge and window. -/
def rebindMailboxes (codename : Codename) (budget : Nat) : BenchStep Unit := do
  let old ← need .mailbox (← get).mailboxes?
  let (part, bridge) ←
    runThrough old.bridge (Mailboxes.bind codename budget old.part.window)
  modify fun b => { b with mailboxes? := some ⟨part, bridge⟩ }

/-- Uses the mailboxes. -/
def withMailboxes (f : Mailboxes → Program α) : BenchStep α := do
  let wired ← need .mailbox (← get).mailboxes?
  let (a, bridge) ← runThrough wired.bridge (f wired.part)
  modify fun b => { b with mailboxes? := some { wired with bridge } }
  return a

/-- Puts a table on the bench; an earlier one is closed afterwards. -/
def newTable (codename : Codename) (interval : Duration) : BenchStep Unit := do
  let old? := (← get).table?
  modify fun b => { b with table? := some { codename, interval } }
  match old? with
  | none => return ()
  | some old =>
    let _ ← runAside (TableReader.close.run old)

/-- The table. -/
def table : BenchStep TableReader := do need .table (← get).table?

/-- Closes the table and keeps it. -/
def closeTable : BenchStep Unit := do
  let (_, closed) ← runAside (TableReader.close.run (← table))
  modify fun b => { b with table? := some closed }

/-- Closes the table and takes it off the bench.  There need not be one: a bench
without a table stays as it is. -/
def dropTable : BenchStep Unit := do
  if (← get).table?.isSome then closeTable
  modify fun b => { b with table? := none }

/-- Uses the table with the mailboxes. -/
def withTable (f : Mailboxes → StateT TableReader Program α) : BenchStep α := do
  let reader ← table
  let (a, reader) ← withMailboxes fun m => (f m).run reader
  modify fun b => { b with table? := some reader }
  return a

/-! ## §7. Driver and session. -/

/-- Uses the driver. -/
def withDriver (step : StateT Driver Program α) : BenchStep α := do
  let wired ← need .context (← get).driver?
  let ((a, part), bridge) ← runThrough wired.bridge (step.run wired.part)
  modify fun b => { b with driver? := some ⟨part, bridge⟩ }
  return a

/-- Closes driver and session and takes them off the bench.  There need not be
any. -/
def dropDriver : BenchStep Unit := do
  if (← get).driver?.isSome then withDriver Driver.close
  modify fun b => { b with driver? := none, session? := none }

/-- Ends the session and closes the driver's table. -/
def closeDriver : BenchStep Unit := do
  withDriver Driver.close
  modify fun b => { b with session? := none }

/-- Starts a driver on a processor with a given signature, or with one that the
machine's generation could have.  An earlier driver is dropped first. -/
def startDriver (signature? : Option Signature) (bridgeWindow : Window) (settings : Settings) :
    BenchStep (Except Failure Unit) := do
  let signature ← need .signature
    (signature?.or (Signature.representative? (← get).codename))
  dropDriver
  onWorld fun w => { w with signature }
  let (outcome, bridge) ← runThrough ⟨bridgeWindow, 0⟩ (Driver.start settings).run
  match outcome with
  | .error failure => return .error failure
  | .ok part =>
    modify fun b => { b with driver? := some ⟨part, bridge⟩ }
    return .ok ()

/-- The running driver. -/
def driver : BenchStep Driver := do
  return (← need .context (← get).driver?).part

/-- Starts a session on the driver. -/
def startSession : BenchStep Unit := do
  let session := Session.start (← driver)
  modify fun b => { b with session? := some session.slots }

/-- The session. -/
def session : BenchStep Session := do
  let slots ← need .session (← get).session?
  return ⟨← driver, slots⟩

/-- Uses the session. -/
def withSession (step : SessionStep α) : BenchStep α := do
  let slots ← need .session (← get).session?
  let wired ← need .context (← get).driver?
  let ((a, after), bridge) ← runThrough wired.bridge (step.run ⟨wired.part, slots⟩)
  modify fun b => { b with driver? := some ⟨after.driver, bridge⟩, session? := some after.slots }
  return a

end Bench

end ManagementUnit.Simulation
