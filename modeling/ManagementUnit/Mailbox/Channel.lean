/-
  ManagementUnit.Mailbox.Channel
  ────────────────────────────────
  The two mailboxes of a management unit and where their registers lie.

  A mailbox is a command register, a response register and a block of six
  argument registers in the management network.  Which addresses they have
  depends on the processor generation; some generations lack the general
  purpose mailbox.
-/
import ManagementUnit.Processor.Codename
import ManagementUnit.Text.Basic

namespace ManagementUnit

/-! ## §1. Channels. -/

/-- One of the two independent mailboxes. -/
inductive Channel where
  /-- The general purpose mailbox, which owns the table commands. -/
  | rsmu
  /-- The power management mailbox. -/
  | mp1
  deriving DecidableEq

/-- The name of a mailbox. -/
def Channel.name : Channel → String
  | rsmu => "RSMU"
  | mp1 => "MP1"

/-! ## §2. Registers. -/

/-- Network addresses of the registers of one mailbox. -/
structure RegisterBlock where
  command : UInt32
  response : UInt32
  arguments : UInt32
  deriving DecidableEq

namespace RegisterBlock

/-- Address of argument word `i`. -/
def argument (b : RegisterBlock) (i : Nat) : UInt32 := b.arguments + UInt32.ofNat i * 4

/-- The three addresses with their names, in hexadecimal without a marker. -/
def text (b : RegisterBlock) : String :=
  "MailboxAddresses \x7b command: " ++ Hex.digits b.command.toNat
    ++ ", response: " ++ Hex.digits b.response.toNat
    ++ ", args: " ++ Hex.digits b.arguments.toNat ++ " \x7d"

/-- The text of a register block that may be absent. -/
def optionalText : Option RegisterBlock → String
  | none => "None"
  | some b => "Some(" ++ b.text ++ ")"

end RegisterBlock

/-! ## §3. Revisions of the power management interface. -/

/-- Revision of the command interface behind the power management mailbox. -/
inductive Revision where
  | v9
  | v10
  | v11
  | v12
  | v13
  deriving DecidableEq

namespace Revision

/-- The number reported for a revision across the driver boundary. -/
def ordinal : Revision → Nat
  | v9 => 0
  | v10 => 1
  | v11 => 2
  | v12 => 3
  | v13 => 4

/-- The number in the revision's name. -/
def number (r : Revision) : Nat := r.ordinal + 9

/-- The name of a revision: its number behind a letter. -/
def text (r : Revision) : String := "v" ++ Decimal.digits r.number

/-- The power management mailbox of a revision. -/
def registers : Revision → RegisterBlock
  | v9 => ⟨0x03B10528, 0x03B10564, 0x03B10598⟩
  | v10 => ⟨0x03B10528, 0x03B10564, 0x03B10998⟩
  | v11 => ⟨0x03B10530, 0x03B1057C, 0x03B109C4⟩
  | v12 => ⟨0x03B10528, 0x03B10564, 0x03B10998⟩
  | v13 => ⟨0x03B10528, 0x03B10578, 0x03B10998⟩

end Revision

/-! ## §4. The address table. -/

namespace Codename

/-- The power management revision of a generation. -/
def revision? : Codename → Option Revision
  | colfax | summitRidge | threadripper | pinnacleRidge => some .v9
  | picasso | ravenRidge | ravenRidge2 | dali => some .v10
  | matisse | vermeer | castlePeak | milan => some .v11
  | renoir | cezanne => some .v12
  | vangogh | rembrandt => some .v13
  | undefined => none

/-- The general purpose mailbox of a generation. -/
def generalPurpose? : Codename → Option RegisterBlock
  | castlePeak | matisse | vermeer | milan => some ⟨0x03B10524, 0x03B10570, 0x03B10A40⟩
  | colfax | summitRidge | threadripper | pinnacleRidge =>
    some ⟨0x03B1051C, 0x03B10568, 0x03B10590⟩
  | renoir | picasso | cezanne | ravenRidge | ravenRidge2 | dali =>
    some ⟨0x03B10A20, 0x03B10A80, 0x03B10A88⟩
  | vangogh | rembrandt | undefined => none

/-- The registers of a mailbox; `none` if the generation does not have it. -/
def registers? (c : Codename) : Channel → Option RegisterBlock
  | .rsmu => c.generalPurpose?
  | .mp1 => c.revision?.map Revision.registers

end Codename
end ManagementUnit
