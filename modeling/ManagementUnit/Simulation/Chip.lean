/-
  ManagementUnit.Simulation.Chip
  ────────────────────────────────
  A management unit made of registers and mailboxes, with a record of what was
  done to it.

  An address is a register that reads as what was written, unless it belongs to
  a mailbox.  Writing a command register runs the command: the firmware sees the
  six argument registers, and its answer is stored in the same registers and in
  the response register before the write returns.  A mailbox can be made to hold
  its answer back: a stalled one reads as zero for a number of reads, and one
  that is never ready reads as zero forever and runs nothing.

  What the firmware answers is a parameter: `Firmware σ` is any step on a state
  `σ` of its own.

  Of the registers only a few are ever touched, so they are kept as a sparse space: a
  cell that was never set reads as zero, and the entries stand in the order in which
  their cells were first set.

  Main results:
    * `Sparse.get_set` — a cell reads as what was set last; no other cell changes.
    * `peek_poke`      — a register reads as what it was set to last.
-/
import ManagementUnit.Mailbox.Arguments
import ManagementUnit.Mailbox.Channel
import ManagementUnit.Mailbox.Status
import ManagementUnit.Network.Basic

namespace ManagementUnit

/-! ## §1. Sparse spaces. -/

/-- Cells of values `α` at keys `κ`, zero where nothing was set. -/
structure Sparse (κ α : Type) where
  entries : List (κ × α)
  deriving DecidableEq

namespace Sparse

variable {κ α : Type} [DecidableEq κ] [OfNat α 0]

/-- A space in which nothing was set. -/
def empty : Sparse κ α := ⟨[]⟩

/-- The value of a key in a list of entries. -/
def lookup : List (κ × α) → κ → α
  | [], _ => 0
  | (k, v) :: rest, key => if k = key then v else lookup rest key

/-- A list of entries with the value of one key replaced, or added at the
end. -/
def update (key : κ) (value : α) : List (κ × α) → List (κ × α)
  | [] => [(key, value)]
  | (k, v) :: rest => if k = key then (key, value) :: rest else (k, v) :: update key value rest

/-- The value of a cell. -/
def get (s : Sparse κ α) (key : κ) : α := lookup s.entries key

/-- The space with one cell set. -/
def set (s : Sparse κ α) (key : κ) (value : α) : Sparse κ α := ⟨update key value s.entries⟩

/-- Replacing the value of one key is seen at that key only. -/
theorem lookup_update (entries : List (κ × α)) (key other : κ) (value : α) :
    lookup (update key value entries) other
      = if key = other then value else lookup entries other := by
  induction entries with
  | nil => rfl
  | cons e rest ih =>
    obtain ⟨k, v⟩ := e
    simp only [update]
    split
    · next h => subst h; simp only [lookup]; split <;> rfl
    · next h =>
      simp only [lookup, ih]
      split
      · next hk =>
        subst hk
        rw [if_neg (Ne.symm h)]
      · rfl

/-- A cell reads as what was set last; no other cell changes. -/
theorem get_set (s : Sparse κ α) (key other : κ) (value : α) :
    (s.set key value).get other = if key = other then value else s.get other :=
  lookup_update s.entries key other value

/-- An untouched cell reads as zero. -/
theorem get_empty (key : κ) : (empty : Sparse κ α).get key = 0 := rfl

end Sparse

/-- How often something happened at each address. -/
abbrev Tally := Sparse UInt32 Nat

namespace Tally

/-- One more at an address. -/
def count (t : Tally) (address : UInt32) : Tally := t.set address (t.get address + 1)

/-- How often it happened at any address. -/
def total (t : Tally) : Nat := t.entries.foldr (fun entry n => entry.2 + n) 0

end Tally

namespace Simulation

/-! ## §2. Uses that make no sense. -/

/-- A use of the simulated hardware that makes no sense. -/
inductive Fault where
  /-- No mailbox has its command register at this address. -/
  | noMailbox (command : UInt32)
  /-- The range is not inside one block of memory. -/
  | noMemory (address : UInt64)
  /-- A range was given back that is not mapped. -/
  | notMapped (length : Nat)
  deriving DecidableEq

/-- The error text of a use that makes no sense. -/
def Fault.message : Fault → String
  | noMailbox command => "no simulated mailbox at " ++ Hex.marked command.toNat
  | noMemory address => "no simulated memory at " ++ Hex.marked address.toNat
  | notMapped length => "unmapping " ++ Hex.marked length ++ " bytes which are not mapped"

/-! ## §3. Firmware. -/

/-- An answer of the firmware: a status and the argument words afterwards. -/
structure Answer where
  status : UInt32
  words : Arguments
  deriving DecidableEq

/-- What the firmware does with a command: which mailbox it came from, named by
its command register, the opcode and the argument words.  `none` is an opcode it
does not know. -/
abbrev Firmware (σ : Type) :=
  (command opcode : UInt32) → Arguments → σ → Option Answer × σ

/-! ## §4. The chip. -/

/-- A simulated mailbox. -/
structure Mailbox where
  registers : RegisterBlock
  /-- The status that every command gets, whatever the firmware answers. -/
  forced? : Option UInt32 := none
  neverReady : Bool := false
  /-- How many response reads yet read as zero. -/
  stall : Nat := 0
  /-- How long the mailbox stalls after each command. -/
  latency : Nat := 0
  deriving DecidableEq

/-- A command as the firmware saw it. -/
structure Command where
  /-- The command register it was written to. -/
  mailbox : UInt32
  opcode : UInt32
  arguments : Arguments
  deriving DecidableEq

/-- A simulated management unit. -/
structure Chip where
  registers : Sparse UInt32 UInt32 := .empty
  mailboxes : List Mailbox := []
  /-- The commands so far, oldest first. -/
  commands : List Command := []
  reads : Tally := .empty
  writes : Tally := .empty
  /-- Addresses that cannot be read. -/
  faultyReads : List UInt32 := []
  /-- Addresses that cannot be written. -/
  faultyWrites : List UInt32 := []
  /-- The identity of the host bridge, if it is not the usual one. -/
  bridge? : Option BridgeId := none
  deriving DecidableEq

namespace Chip

/-- The first configuration word of the host bridge unless another one is set. -/
def usualBridgeWord : UInt32 := 0x14501022

/-- The first configuration word of the host bridge. -/
def bridgeWord (c : Chip) : UInt32 := (c.bridge?.map BridgeId.toWord).getD usualBridgeWord

/-! ## §5. Setting up. -/

/-- The contents of a register; not an access. -/
def peek (c : Chip) (address : UInt32) : UInt32 := c.registers.get address

/-- Sets a register; not an access. -/
def poke (c : Chip) (address value : UInt32) : Chip :=
  { c with registers := c.registers.set address value }

/-- A register that was set reads as what it was set to; the others stay. -/
theorem peek_poke (c : Chip) (address other value : UInt32) :
    (c.poke address value).peek other = if address = other then value else c.peek other :=
  Sparse.get_set c.registers address other value

/-- Adds a mailbox.  It is idle, with success in its response register. -/
def attach (c : Chip) (registers : RegisterBlock) : Chip :=
  { c.poke registers.response ResponseCode.ok with mailboxes := c.mailboxes ++ [{ registers }] }

/-- Adds the mailboxes that a generation has. -/
def attachAll (c : Chip) (codename : Codename) : Chip :=
  ([Channel.rsmu, Channel.mp1].filterMap codename.registers?).foldl attach c

/-- The number of the first mailbox with a given command register. -/
def mailboxAt? (c : Chip) (command : UInt32) : Option Nat :=
  c.mailboxes.findIdx? fun m => m.registers.command == command

/-- Changes the first mailbox with a given command register. -/
def adjust (c : Chip) (command : UInt32) (f : Mailbox → Mailbox) : Except Fault Chip :=
  match c.mailboxAt? command with
  | some i => .ok { c with mailboxes := c.mailboxes.modify i f }
  | none => .error (.noMailbox command)

/-- Makes reads of an address fault. -/
def failReads (c : Chip) (address : UInt32) : Chip :=
  { c with faultyReads := address :: c.faultyReads }

/-- Makes every access to an address fault. -/
def failAll (c : Chip) (address : UInt32) : Chip :=
  { c.failReads address with faultyWrites := address :: c.faultyWrites }

/-- Lets an address work again. -/
def heal (c : Chip) (address : UInt32) : Chip :=
  { c with
    faultyReads := c.faultyReads.filter (· ≠ address),
    faultyWrites := c.faultyWrites.filter (· ≠ address) }

/-- Forgets what was done. -/
def clearRecord (c : Chip) : Chip := { c with commands := [], reads := .empty, writes := .empty }

/-- How many accesses were made, those that faulted included. -/
def totalAccesses (c : Chip) : Nat := c.reads.total + c.writes.total

/-- How often an opcode was sent to a mailbox. -/
def commandCount (c : Chip) (mailbox opcode : UInt32) : Nat :=
  c.commands.countP fun r => r.mailbox == mailbox && r.opcode == opcode

/-! ## §6. Accesses. -/

/-- Counts a read. -/
def countRead (c : Chip) (address : UInt32) : Chip := { c with reads := c.reads.count address }

/-- Counts a write. -/
def countWrite (c : Chip) (address : UInt32) : Chip := { c with writes := c.writes.count address }

/-- Reads a register; `none` if the access faults. -/
def read (c : Chip) (address : UInt32) : Option UInt32 × Chip :=
  -- a faulting access counts as well
  let counted := c.countRead address
  if address ∈ c.faultyReads then (none, counted)
  else
    match c.mailboxes.findIdx? fun m => m.registers.response == address with
    | none => (some (c.peek address), counted)
    | some i =>
      match c.mailboxes[i]? with
      | none => (some (c.peek address), counted)
      | some m =>
        if m.neverReady then (some 0, counted)
        else if m.stall = 0 then (some (c.peek address), counted)
        else
          let waiting := c.mailboxes.set i { m with stall := m.stall - 1 }
          (some 0, { counted with mailboxes := waiting })

/-- The contents of the argument registers of a mailbox. -/
def argumentWords (c : Chip) (block : RegisterBlock) : Arguments :=
  Arguments.ofFn fun i => c.peek (block.argument i.val)

/-- Stores words in the argument registers of a mailbox, in order. -/
def storeWords (c : Chip) (block : RegisterBlock) (words : Arguments) : Chip :=
  Arguments.positions.foldl (fun c i => c.poke (block.argument i.val) (words.get i)) c

variable {σ : Type}

/-- Runs a command that was written to mailbox number `i`. -/
def runCommand (firmware : Firmware σ) (c : Chip) (s : σ) (i : Nat) (m : Mailbox)
    (opcode : UInt32) : Chip × σ :=
  let words := c.argumentWords m.registers
  -- the command is seen even by a mailbox that will not answer
  let recorded := { c with commands := c.commands ++ [⟨m.registers.command, opcode, words⟩] }
  if m.neverReady then (recorded, s)
  else
    -- a forced status hides the firmware's own, not what the firmware does
    let answered := firmware m.registers.command opcode words s
    let status := m.forced?.getD
      ((answered.1.map Answer.status).getD ResponseCode.unknownCommand)
    let result := (answered.1.map Answer.words).getD words
    let waiting := c.mailboxes.set i { m with stall := m.latency }
    let stalled := { recorded with mailboxes := waiting }
    -- the words are there before the response tells so
    ((stalled.storeWords m.registers result).poke m.registers.response status, answered.2)

/-- Writes a register; `none` if the access faults. -/
def write (firmware : Firmware σ) (c : Chip) (s : σ) (address value : UInt32) :
    Option Unit × Chip × σ :=
  let counted := c.countWrite address
  if address ∈ c.faultyWrites then (none, counted, s)
  else
    let stored := counted.poke address value
    match c.mailboxAt? address with
    | none => (some (), stored, s)
    | some i =>
      match c.mailboxes[i]? with
      | none => (some (), stored, s)
      | some m => (some (), runCommand firmware stored s i m value)

end Chip

/-! ## §7. The host bridge in front of the chip. -/

/-- The configuration space of the host bridge: the window it answers on and the
address in its index register. -/
structure Bridge where
  window : Window
  index : UInt32 := 0
  deriving DecidableEq

namespace Bridge

variable {σ : Type}

/-- Reads a configuration word: the bridge's identity, the index, or the chip's
word at the index. -/
def read (b : Bridge) (c : Chip) (offset : UInt16) : Except BridgeFault UInt32 × Chip :=
  if offset = 0 then (.ok c.bridgeWord, c)
  else if offset = b.window.index then (.ok b.index, c)
  else if offset = b.window.data then
    match c.read b.index with
    | (some value, c) => (.ok value, c)
    | (none, c) => (.error ⟨offset⟩, c)
  else (.error ⟨offset⟩, c)

/-- Writes a configuration word: the index, or the chip's word at the index. -/
def write (firmware : Firmware σ) (b : Bridge) (c : Chip) (s : σ) (offset : UInt16)
    (value : UInt32) : Except BridgeFault Unit × Bridge × Chip × σ :=
  if offset = b.window.index then (.ok (), { b with index := value }, c, s)
  else if offset = b.window.data then
    match c.write firmware s b.index value with
    | (some (), c, s) => (.ok (), b, c, s)
    | (none, c, s) => (.error ⟨offset⟩, b, c, s)
  else (.error ⟨offset⟩, b, c, s)

end Bridge

end Simulation
end ManagementUnit
