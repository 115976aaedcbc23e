/-
  ManagementUnit.Mailbox.Status
  ────────────────────────────────
  What the response register says about a finished command, and the numbers
  under which outcomes are reported across the driver boundary.

  The firmware answers with `01h` or one of `FCh` to `FFh`; the driver adds
  codes of its own below `FCh`.  A status without a name here is kept as the
  number it is.

  Main results:
    * `raw_ofRaw` — naming a status loses nothing.
    * `ofRaw_eq_ok_iff` — only the number 1 means success.
-/
import ManagementUnit.Text.Basic

namespace ManagementUnit

/-! ## §1. Response codes. -/

namespace ResponseCode

/-- The command was carried out. -/
def ok : UInt32 := 0x01

/-- The command was tried and failed. -/
def failed : UInt32 := 0xFF

/-- The firmware does not know the opcode. -/
def unknownCommand : UInt32 := 0xFE

/-- The command needs something that was not done before. -/
def prerequisiteMissing : UInt32 := 0xFD

/-- The firmware is at work on something else. -/
def busy : UInt32 := 0xFC

/-- The firmware did not answer within the retry budget. -/
def timeout : UInt32 := 0xFB

/-- The driver was given a value that it does not take. -/
def invalidArgument : UInt32 := 0xFA

/-- This processor does not have what was asked for. -/
def unsupported : UInt32 := 0xF9

/-- The buffer cannot hold the table. -/
def shortBuffer : UInt32 := 0xF8

/-- A part of the table could not be made readable. -/
def mappingFailed : UInt32 := 0xF7

/-- A network access did not go through. -/
def busFailed : UInt32 := 0xF6

/-- The codes that firmware answers with. -/
def ofFirmware : List UInt32 := [ok, failed, unknownCommand, prerequisiteMissing, busy]

/-- All codes: those of the firmware, then those of the driver. -/
def all : List UInt32 :=
  ofFirmware ++ [timeout, invalidArgument, unsupported, shortBuffer, mappingFailed, busFailed]

end ResponseCode

/-! ## §2. Completion status. -/

/-- The status of a finished command. -/
inductive Status where
  | ok
  | failed
  | unknownCommand
  | prerequisiteMissing
  | busy
  /-- A status without a name, kept as it was read. -/
  | other (raw : UInt32)
  deriving DecidableEq

namespace Status

/-- The status that a response register value stands for. -/
def ofRaw (raw : UInt32) : Status :=
  if raw = ResponseCode.ok then ok
  else if raw = ResponseCode.failed then failed
  else if raw = ResponseCode.unknownCommand then unknownCommand
  else if raw = ResponseCode.prerequisiteMissing then prerequisiteMissing
  else if raw = ResponseCode.busy then busy
  else other raw

/-- The response register value of a status. -/
def raw : Status → UInt32
  | ok => ResponseCode.ok
  | failed => ResponseCode.failed
  | unknownCommand => ResponseCode.unknownCommand
  | prerequisiteMissing => ResponseCode.prerequisiteMissing
  | busy => ResponseCode.busy
  | other r => r

/-- A status in words; one without a name is written as its number. -/
def text : Status → String
  | ok => "ok"
  | failed => "failed"
  | unknownCommand => "unknown command"
  | prerequisiteMissing => "prerequisite not met"
  | busy => "busy"
  | other r => "status " ++ Hex.markedTo 4 r.toNat

/-- Naming a status loses nothing. -/
theorem raw_ofRaw (r : UInt32) : (ofRaw r).raw = r := by
  unfold ofRaw
  repeat' split
  all_goals simp_all [raw]

/-- Only the number 1 means success. -/
theorem ofRaw_eq_ok_iff (r : UInt32) : ofRaw r = ok ↔ r = ResponseCode.ok := by
  unfold ofRaw
  repeat' split
  all_goals simp_all

end Status
end ManagementUnit
