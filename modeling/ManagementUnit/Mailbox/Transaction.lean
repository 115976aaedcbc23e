/-
  ManagementUnit.Mailbox.Transaction
  ────────────────────────────────
  One request to the management unit and its answer.

  A transaction waits until the response register is non-zero, clears it, writes
  the six argument words and then the opcode, waits again, and on success reads
  the six words back:

      wait · response ← 0 · arguments ← words · command ← opcode · wait · words

  Both waits draw on one budget of response register reads.  A fault before the
  words are read back ends the transaction; a word that cannot be read back
  keeps the value that was sent.
-/
import ManagementUnit.Platform

namespace ManagementUnit

open Program (note)

/-- The mailboxes of one processor. -/
structure Mailboxes where
  codename : Codename
  /-- How often one transaction may read the response register. -/
  budget : Nat
  /-- Where the management network is reached. -/
  window : Window
  deriving DecidableEq

namespace Mailboxes

/-- The registers of one mailbox; `none` if the processor lacks it. -/
def registers? (m : Mailboxes) (channel : Channel) : Option RegisterBlock :=
  m.codename.registers? channel

/-- Binds the mailboxes of a processor. -/
def bind (codename : Codename) (budget : Nat) (window : Window) : Program Mailboxes := do
  note (.mailboxesBound codename)
  return ⟨codename, budget, window⟩

/-! ## §1. Single words. -/

/-- Reads a word of the management network. -/
def readWord (m : Mailboxes) (address : UInt32) : Attempt UInt32 :=
  ExceptT.mk (Except.mapError Failure.bus <$> Network.read m.window address)

/-- Writes a word of the management network. -/
def writeWord (m : Mailboxes) (address value : UInt32) : Attempt Unit :=
  ExceptT.mk (Except.mapError Failure.bus <$> Network.write m.window address value)

/-! ## §2. The steps of a transaction. -/

/-- Reads the response register until it is non-zero, `budget` times at most.
Gives the value read and what is left of the budget. -/
def awaitResponse (m : Mailboxes) (response : UInt32) : (budget : Nat) → Attempt (UInt32 × Nat)
  | 0 => Attempt.fail .timeout
  | budget + 1 => do
    let value ← m.readWord response
    if value = 0 then m.awaitResponse response budget else return (value, budget)

/-- Writes the argument words in order. -/
def writeArguments (m : Mailboxes) (block : RegisterBlock) (arguments : Arguments) :
    Attempt Unit :=
  Arguments.positions.forM fun i => m.writeWord (block.argument i) (arguments.get i)

/-- Reads one argument word back over `words`; a word that cannot be read stays
as it is. -/
def readBack (m : Mailboxes) (channel : Channel) (block : RegisterBlock) (words : Arguments)
    (i : Fin wordCount) : Program Arguments := do
  match ← Network.read m.window (block.argument i) with
  | .ok word => return words.set i word
  | .error fault =>
    note (.wordUnreadable channel i fault)
    return words

/-! ## §3. The transaction. -/

/-- Sends one request and returns the words of the answer. -/
def execute (m : Mailboxes) (channel : Channel) (opcode : UInt32) (arguments : Arguments) :
    Attempt Arguments := do
  let block ← Attempt.require (m.registers? channel)
  note (.requestSent channel opcode arguments)
  -- a command that is still running keeps the response register at zero
  let (_, left) ← m.awaitResponse block.response m.budget
  -- from here on only the firmware makes the response register non-zero again
  m.writeWord block.response 0
  m.writeArguments block arguments
  m.writeWord block.command opcode
  -- what the first wait left of the budget is all there is for the second
  let (raw, _) ← m.awaitResponse block.response left
  let status := Status.ofRaw raw
  if status = .ok then
    -- the command is done, so a fault from here on costs a word and not the answer
    let words ← (Arguments.positions.foldlM (m.readBack channel block) arguments : Program _)
    note (.requestAnswered channel opcode words)
    return words
  else
    note (.requestRejected channel opcode status)
    Attempt.fail (.rejected status)

/-! ## §4. The version query. -/

/-- The opcode of the version query, the same on every processor. -/
def versionOpcode : UInt32 := 0x02

/-- The firmware version behind a mailbox, which also tells whether the mailbox
works.  An answer of at most one byte is a status code, not a version. -/
def version (m : Mailboxes) (channel : Channel) : Attempt Version := do
  let words ← m.execute channel versionOpcode (Arguments.first 1)
  if words.word0 ≤ 0xFF then Attempt.fail (.rejected .failed) else return ⟨words.word0⟩

end Mailboxes
end ManagementUnit
