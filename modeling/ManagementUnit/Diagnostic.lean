/-
  ManagementUnit.Diagnostic
  ────────────────────────────────
  What the driver tells: which firmware runs, what works, why an operation failed,
  and what it notes while it works.

  A version is four bytes in one word, the most significant one first, and is
  written as dotted decimal numbers; the top byte is left out when it is zero.

  Every failure has a code that it is reported under, except that the processor
  could not be named: that happens before there is a driver that could report one.

  There is one note for each thing worth noting, with a level and a line of text for
  each.
-/
import ManagementUnit.Mailbox.Arguments
import ManagementUnit.Mailbox.Channel
import ManagementUnit.Mailbox.Status
import ManagementUnit.Network.Basic
import ManagementUnit.Processor.Identity
import ManagementUnit.Table.Scheme

namespace ManagementUnit

/-! ## §1. Firmware versions. -/

/-- A firmware version. -/
structure Version where
  raw : UInt32
  deriving DecidableEq

namespace Version

/-- The four numbers of a version, most significant first. -/
def parts (v : Version) : List UInt8 :=
  [Word.byte v.raw 0x1000000, Word.byte v.raw 0x10000, Word.byte v.raw 0x100, Word.byte v.raw 0x1]

/-- The numbers that are written: all four, or the last three if the first is
zero. -/
def written (v : Version) : List UInt8 :=
  if v.raw.toNat < 0x1000000 then v.parts.tail else v.parts

/-- The pieces of a version's text, in order: numbers and the dots between
them. -/
def pieces (v : Version) : List String :=
  (v.written.map fun part => Decimal.digits part.toNat).intersperse "."

/-- The text of a version. -/
def text (v : Version) : String := String.join v.pieces

/-- Versions are ordered as their words are. -/
instance : LT Version := ⟨fun a b => a.raw < b.raw⟩
instance (a b : Version) : Decidable (a < b) := inferInstanceAs (Decidable (a.raw < b.raw))

end Version

/-! ## §2. What works. -/

/-- What was found to work when the driver started. -/
structure Capabilities where
  /-- The general purpose mailbox answers commands. -/
  generalPurpose : Bool := false
  /-- The length of the power table, if it can be read. -/
  tableLength? : Option Nat := none
  /-- The format of the power table, if the firmware tells a non-zero one. -/
  tableFormat? : Option UInt32 := none
  deriving DecidableEq

namespace Capabilities

/-- Whether the power table can be read. -/
def hasTable (c : Capabilities) : Bool := c.tableLength?.isSome

end Capabilities

/-! ## §3. Failures. -/

/-- Why an operation failed. -/
inductive Failure where
  /-- A network access did not go through. -/
  | bus (fault : NetworkFault)
  /-- The response register stayed zero for the whole retry budget. -/
  | timeout
  /-- The firmware finished the command with something other than success. -/
  | rejected (status : Status)
  /-- This processor does not have what was asked for. -/
  | unsupported
  /-- The buffer cannot hold the table; so many bytes would. -/
  | shortBuffer (required : Nat)
  /-- A part of the table could not be made readable. -/
  | unmapped (error : MapError)
  /-- The processor is not a known one. -/
  | unidentified (error : IdentityError)
  deriving DecidableEq

namespace Failure

/-- The error text of a failure. -/
def message : Failure → String
  | bus fault => "SMN bus programming failed: " ++ fault.message
  | timeout => "timed out waiting for the SMU"
  | rejected status => "SMU rejected the command: " ++ status.text
  | unsupported => "not supported on this processor"
  | shortBuffer required => "buffer too small, " ++ Hex.marked required ++ " bytes required"
  | unmapped error => error.message
  | unidentified error => "processor identification failed: " ++ error.message

/-- The code of a failure; a rejection keeps the number the firmware gave. -/
def responseCode? : Failure → Option UInt32
  | bus _ => some ResponseCode.busFailed
  | timeout => some ResponseCode.timeout
  | rejected status => some status.raw
  | unsupported => some ResponseCode.unsupported
  | shortBuffer _ => some ResponseCode.shortBuffer
  | unmapped _ => some ResponseCode.mappingFailed
  | unidentified _ => none

end Failure

/-! ## §4. Levels. -/

/-- How much a note matters. -/
inductive Level where
  | error
  | warn
  | info
  | debug
  deriving DecidableEq

/-- The word that stands in front of a note of this level. -/
def Level.name : Level → String
  | error => "ERROR"
  | warn => "WARN"
  | info => "INFO"
  | debug => "DEBUG"

/-! ## §5. The notes. -/

/-- Something worth noting. -/
inductive Diagnostic where
  /-- The identification leaves were read. -/
  | signatureRead (family model stepping : Nat) (package : Package)
  /-- The signature is not in the decision table. -/
  | processorUnknown (error : IdentityError)
  /-- The processor was named. -/
  | processorNamed (codename : Codename)
  /-- A network access did not go through. -/
  | networkFault (fault : NetworkFault)
  /-- The mailboxes of a generation were looked up. -/
  | mailboxesBound (codename : Codename)
  /-- A command is about to be sent. -/
  | requestSent (channel : Channel) (opcode : UInt32) (arguments : Arguments)
  /-- A command finished without success. -/
  | requestRejected (channel : Channel) (opcode : UInt32) (status : Status)
  /-- An argument word of an answer could not be read. -/
  | wordUnreadable (channel : Channel) (position : Nat) (fault : NetworkFault)
  /-- A command finished with success. -/
  | requestAnswered (channel : Channel) (opcode : UInt32) (arguments : Arguments)
  /-- The firmware did not tell where the table lies. -/
  | locationFailed (failure : Failure)
  /-- The firmware did not tell the format of the table. -/
  | formatFailed (failure : Failure)
  /-- No length is known for the format of the table. -/
  | formatUnknown (format : UInt32)
  /-- The table was found and measured. -/
  | tableLocated (geometry : Geometry)
  /-- The firmware transferred a fresh table. -/
  | tableTransferred
  /-- The table was asked for after it had been closed. -/
  | tableClosed
  /-- The table does not fit into the buffer it was to be read into. -/
  | bufferTooShort (length required : Nat)
  /-- The first region of the table could not be mapped. -/
  | primaryUnmapped (error : MapError)
  /-- The second region of the table could not be mapped. -/
  | secondaryUnmapped (error : MapError)
  /-- The mappings of the table were given back. -/
  | tableReleased
  /-- The host bridge does not tell its identity. -/
  | bridgeUnreadable (fault : BridgeFault)
  /-- The host bridge does not lead to a management network. -/
  | bridgeUnknown (id : BridgeId)
  /-- The power management mailbox does not tell its version. -/
  | versionFailed (failure : Failure)
  /-- The version of the firmware is known. -/
  | firmwareVersion (version : Version)
  /-- The general purpose mailbox does not answer. -/
  | generalPurposeSilent (failure : Failure)
  /-- The firmware does not transfer a table. -/
  | tableUnsupported (failure : Failure)
  /-- The firmware transfers a table but does not tell its format. -/
  | formatUnresolved (failure : Failure)
  /-- The table can be read. -/
  | tableReadable (length : Nat)
  /-- The table cannot be read. -/
  | tableUnreadable (failure : Failure)
  /-- It is known what works. -/
  | capabilitiesFound (capabilities : Capabilities)
  /-- A command stored through an endpoint failed. -/
  | commandFailed (channel : Channel) (opcode : UInt32) (failure : Failure)
  /-- A network read stored through an endpoint failed. -/
  | networkReadFailed (address : UInt32) (failure : Failure)

namespace Diagnostic

/-! ## §6. The level of each note. -/

/-- How much each note matters. -/
def level : Diagnostic → Level
  | processorUnknown _ | locationFailed _ | formatFailed _ | formatUnknown _ | primaryUnmapped _
  | secondaryUnmapped _ | bridgeUnreadable _ | bridgeUnknown _ | versionFailed _
  | formatUnresolved _ | tableUnreadable _ => .error
  | networkFault _ | wordUnreadable .. | tableClosed | bufferTooShort .. => .warn
  | signatureRead .. | processorNamed _ | firmwareVersion _ | generalPurposeSilent _
  | capabilitiesFound _ => .info
  | mailboxesBound _ | requestSent .. | requestRejected .. | requestAnswered .. | tableLocated _
  | tableTransferred | tableReleased | tableUnsupported _ | tableReadable _ | commandFailed ..
  | networkReadFailed .. => .debug

/-! ## §7. The text of each note. -/

/-- The common start of the notes about one command. -/
def commandText (channel : Channel) (verb : String) (opcode : UInt32) : String :=
  "SMU " ++ channel.name ++ " " ++ verb ++ ": op " ++ Hex.markedTo 4 opcode.toNat ++ ", "

/-- The words of an argument block as they are noted. -/
def argumentText (arguments : Arguments) : String := "args " ++ Hex.wordRow arguments.toList

/-- The note about a network access that did not go through. -/
def networkFaultText : NetworkFault → String
  | .select a => "Error programming SMN address: " ++ Hex.marked a.toNat
  | .read a => "Error reading SMN address: " ++ Hex.marked a.toNat
  | .write a => "Error writing SMN address: " ++ Hex.marked a.toNat

/-- The note about a table that was found and measured; a table in one region is
noted with an absent second base and the length zero. -/
def geometryText (g : Geometry) : String :=
  "PM table at " ++ g.primary.base.text
    ++ " (" ++ Hex.marked g.primary.length
    ++ " bytes), secondary " ++ PhysicalAddress.optionalText (g.secondary?.map Extent.base)
    ++ " (" ++ Hex.marked ((g.secondary?.map Extent.length).getD 0)
    ++ " bytes), version " ++ Hex.marked g.format.toNat

/-- The note about what was found to work. -/
def capabilitiesText (c : Capabilities) : String :=
  "SMU capabilities: RSMU " ++ (if c.generalPurpose then "true" else "false")
    ++ ", PM table " ++ Decimal.optional c.tableLength?
    ++ ", PM table version " ++ Decimal.optional (c.tableFormat?.map UInt32.toNat)

/-- The line of text of each note. -/
def text : Diagnostic → String
  | signatureRead family model stepping package =>
    "CPUID: family " ++ Hex.marked family ++ ", model " ++ Hex.marked model
      ++ ", stepping " ++ Hex.marked stepping ++ ", package " ++ Hex.marked package.raw
  | processorUnknown error => "CPUID: " ++ error.message
  | processorNamed codename => "CPUID: processor codename " ++ codename.name
  | networkFault fault => networkFaultText fault
  | mailboxesBound codename =>
    "SMU mailboxes for " ++ codename.name
      ++ ": RSMU " ++ RegisterBlock.optionalText (codename.registers? .rsmu)
      ++ ", MP1 " ++ RegisterBlock.optionalText (codename.registers? .mp1)
  | requestSent channel opcode arguments =>
    commandText channel "request" opcode ++ argumentText arguments
  | requestRejected channel opcode status => commandText channel "response" opcode ++ status.text
  | wordUnreadable channel position fault =>
    "SMU " ++ channel.name ++ " response: cannot read back argument " ++ Decimal.digits position
      ++ ": " ++ fault.message
  | requestAnswered channel opcode arguments =>
    commandText channel "response" opcode ++ argumentText arguments
  | locationFailed failure => "Unable to receive the DRAM base address: " ++ failure.message
  | formatFailed failure => "Failed to get PM table version: " ++ failure.message
  | formatUnknown format => "Unknown PM table version: " ++ Hex.markedTo 10 format.toNat
  | tableLocated geometry => geometryText geometry
  | tableTransferred => "PM table refreshed"
  | tableClosed => "PM table access after teardown"
  | bufferTooShort length required =>
    "Insufficient buffer size for PM table read: " ++ Decimal.digits length ++ " < "
      ++ Decimal.digits required
  | primaryUnmapped error => "Failed to map DRAM base: " ++ error.message
  | secondaryUnmapped error => "Failed to map secondary DRAM base: " ++ error.message
  | tableReleased => "PM table unmapped"
  | bridgeUnreadable fault => "Failed to read the host bridge ID: " ++ fault.message
  | bridgeUnknown id => "Host bridge " ++ id.text ++ " is not a supported root complex"
  | versionFailed failure => "Failed to query the MP1 SMU version: " ++ failure.message
  | firmwareVersion version => "SMU v" ++ version.text
  | generalPurposeSilent failure =>
    "RSMU mailbox disabled or not responding to commands: " ++ failure.message
  | tableUnsupported failure => "PM tables are not supported on this platform: " ++ failure.message
  | formatUnresolved failure =>
    "Unable to resolve the PM table version, disabling PM table access: " ++ failure.message
  | tableReadable length => "PM table readable: " ++ Hex.marked length ++ " bytes"
  | tableUnreadable failure =>
    "Failed to read the PM table, disabling PM table access: " ++ failure.message
  | capabilitiesFound capabilities => capabilitiesText capabilities
  | commandFailed channel opcode failure =>
    channel.name ++ " command " ++ Hex.markedTo 4 opcode.toNat ++ " failed: " ++ failure.message
  | networkReadFailed address failure =>
    "SMN read of " ++ Hex.markedTo 10 address.toNat ++ " failed: " ++ failure.message

/-- Level and text in one line. -/
def line (d : Diagnostic) : String := d.level.name ++ " " ++ d.text

end Diagnostic

end ManagementUnit
