/-
  ManagementUnit.Session.Endpoint
  ────────────────────────────────
  The named values through which the driver is used, what is written to them, and how
  they are put into a buffer.

  Every endpoint can be read; four of them can also be written.  Which ones are
  present depends on what was found to work.

  A command is written as an opcode in one byte or in four; a network access as an
  address to read, or as an address and the value to write there.  A binary value goes
  into a buffer of fixed length whole or not at all.  A text is written piece by
  piece: if a piece does not fit, the pieces before it are already in the buffer.

  Main results:
    * `mem_all` — no endpoint is left out of the list.
    * `length_putPieces` — the buffer keeps its length.
    * `putPieces_of_fits` — a text that fits is at the front afterwards, and the
      rest of the buffer is as it was.
    * `putPieces_of_short` — of a text that does not fit, the pieces before the
      first that is too long are.
-/
import ManagementUnit.Diagnostic

namespace ManagementUnit

/-! ## §1. Endpoints. -/

/-- A named value of the driver. -/
inductive Endpoint where
  /-- The version of the driver's interface. -/
  | driverVersion
  /-- The firmware version. -/
  | firmwareVersion
  /-- The revision of the power management interface. -/
  | revision
  | codename
  /-- The argument words of the next command, or the answer of the last one. -/
  | arguments
  /-- A command to the power management mailbox. -/
  | mp1Command
  /-- An access to the management network. -/
  | network
  /-- A command to the general purpose mailbox. -/
  | rsmuCommand
  | tableLength
  | table
  | tableFormat
  deriving DecidableEq

namespace Endpoint

/-- All endpoints, in the order in which they are listed. -/
def all : List Endpoint :=
  [driverVersion, firmwareVersion, revision, codename, arguments, mp1Command, network, rsmuCommand,
    tableLength, table, tableFormat]

/-- The name under which an endpoint is used. -/
def name : Endpoint → String
  | driverVersion => "drv_version"
  | firmwareVersion => "version"
  | revision => "mp1_if_version"
  | codename => "codename"
  | arguments => "smu_args"
  | mp1Command => "mp1_smu_cmd"
  | network => "smn"
  | rsmuCommand => "rsmu_cmd"
  | tableLength => "pm_table_size"
  | table => "pm_table"
  | tableFormat => "pm_table_version"

/-- The endpoint with a given name. -/
def ofName? (s : String) : Option Endpoint := all.find? fun e => e.name == s

/-- Whether an endpoint can be written. -/
def isWritable : Endpoint → Bool
  | arguments | mp1Command | network | rsmuCommand => true
  | _ => false

/-- Whether an endpoint is present where so much works. -/
def isPresent (e : Endpoint) (c : Capabilities) : Bool :=
  match e with
  | rsmuCommand => c.generalPurpose
  | tableLength | table => c.hasTable
  | tableFormat => c.tableFormat?.isSome
  | _ => true

/-- No endpoint is left out of the list. -/
theorem mem_all (e : Endpoint) : e ∈ all := by
  cases e <;> decide

end Endpoint

/-- Why an endpoint could not be read or written. -/
inductive EndpointError where
  /-- The endpoint is not present. -/
  | unavailable (endpoint : Endpoint)
  | readOnly (endpoint : Endpoint)
  /-- The endpoint is never written with so many bytes. -/
  | invalidSize (endpoint : Endpoint) (length : Nat)
  /-- The output buffer cannot hold the value. -/
  | bufferTooSmall (endpoint : Endpoint)
  /-- The driver failed underneath. -/
  | driver (failure : Failure)
  deriving DecidableEq

/-- The error text of an endpoint that could not be read or written. -/
def EndpointError.message : EndpointError → String
  | unavailable e => "endpoint " ++ e.name ++ " is not available on this processor"
  | readOnly e => "endpoint " ++ e.name ++ " is read-only"
  | invalidSize e length =>
    "endpoint " ++ e.name ++ " does not accept " ++ Decimal.digits length ++ " bytes"
  | bufferTooSmall e => "output buffer too small for endpoint " ++ e.name
  | driver failure => failure.message

/-! ## §2. What is written to an endpoint. -/

/-- The opcode that is written to a command endpoint: one byte, or one word. -/
def Opcode.ofBytes? : Bytes → Option UInt32
  | [b] => some b.toUInt32
  | bytes => Word.ofBytes? bytes

/-- What is written to the network endpoint. -/
inductive NetworkAccess where
  /-- Read the word at an address. -/
  | read (address : UInt32)
  /-- Write a word at an address. -/
  | write (address value : UInt32)
  deriving DecidableEq

/-- Four bytes are an address to read, eight an address and a value to
write. -/
def NetworkAccess.ofBytes? (bytes : Bytes) : Option NetworkAccess :=
  if bytes.length = 4 then (Word.ofBytes? bytes).map .read
  else if bytes.length = 8 then do
    let address ← Word.ofBytes? (bytes.take 4)
    let value ← Word.ofBytes? (bytes.drop 4)
    return .write address value
  else none

/-! ## §3. The version check. -/

/-- The version of the interface that this driver has. -/
def interfaceVersion : String := "0.1.2"

/-- The driver that a client found is not the one it was made for. -/
structure VersionMismatch where
  found : String
  deriving DecidableEq

/-- The error text of a version check that failed. -/
def VersionMismatch.message (m : VersionMismatch) : String :=
  "driver version mismatch: expected " ++ interfaceVersion ++ ", found " ++ Text.quoted m.found

/-- Checks what a client read as the driver's version.  One line feed at the end
is allowed. -/
def checkInterfaceVersion (found : String) : Except VersionMismatch Unit :=
  if found = interfaceVersion ∨ found = interfaceVersion ++ "\n" then .ok ()
  else .error ⟨found⟩

/-! ## §4. Values in a buffer. -/

/-- The bytes of a text that has only ASCII characters. -/
def Bytes.ofAscii (s : String) : Bytes := s.toList.map fun c => UInt8.ofNat c.toNat

/-- The pieces in which a number is written that is filled with zeros up to a
width: each zero is a piece of its own. -/
def Decimal.filledPieces (width n : Nat) : List String :=
  List.replicate (width - (Nat.toDigits 10 n).length) "0" ++ [Decimal.digits n]

/-- A value as it is written into a buffer. -/
inductive Rendering where
  /-- A text in pieces. -/
  | text (pieces : List Bytes)
  /-- A binary value. -/
  | binary (bytes : Bytes)
  deriving DecidableEq

namespace Rendering

/-- A text in pieces, with a line feed as its last one. -/
def line (pieces : List String) : Rendering := text ((pieces ++ ["\n"]).map Bytes.ofAscii)

/-- All bytes of a value. -/
def bytes : Rendering → Bytes
  | text pieces => pieces.flatten
  | binary bytes => bytes

/-- Writes pieces over the front of a buffer, as far as they fit.  Tells whether
all of them did. -/
def putPieces : List Bytes → Bytes → Bool × Bytes
  | [], buffer => (true, buffer)
  | piece :: pieces, buffer =>
    if piece.length ≤ buffer.length then
      let rest := putPieces pieces (buffer.drop piece.length)
      (rest.1, piece ++ rest.2)
    else (false, buffer)

/-- Writes a value over the front of a buffer.  Tells whether all of it fitted,
and gives the buffer afterwards. -/
def put : Rendering → Bytes → Bool × Bytes
  | text pieces, buffer => putPieces pieces buffer
  | binary bytes, buffer =>
    if bytes.length ≤ buffer.length then (true, Bytes.overlay buffer bytes) else (false, buffer)

/-- Writing pieces keeps the length of the buffer. -/
theorem length_putPieces (pieces : List Bytes) (buffer : Bytes) :
    (putPieces pieces buffer).2.length = buffer.length := by
  induction pieces generalizing buffer with
  | nil => rfl
  | cons piece pieces ih =>
    simp only [putPieces]
    split
    · simp only [List.length_append, ih, List.length_drop]
      omega
    · rfl

/-- Pieces that fit together are written as one string. -/
theorem putPieces_of_fits (pieces : List Bytes) (buffer : Bytes)
    (h : pieces.flatten.length ≤ buffer.length) :
    putPieces pieces buffer = (true, Bytes.overlay buffer pieces.flatten) := by
  induction pieces generalizing buffer with
  | nil => rfl
  | cons piece pieces ih =>
    simp only [List.flatten_cons, List.length_append] at h
    have hrest : pieces.flatten.length ≤ (buffer.drop piece.length).length := by
      rw [List.length_drop]
      omega
    have hpiece : piece.length ≤ buffer.length := by omega
    simp only [putPieces, if_pos hpiece, ih _ hrest, Bytes.overlay, List.flatten_cons,
      List.length_append, List.drop_drop, List.append_assoc]

/-- Pieces that do not all fit are written up to the first that does not. -/
theorem putPieces_of_short (pieces : List Bytes) (buffer : Bytes)
    (h : buffer.length < pieces.flatten.length) :
    ∃ front piece back, pieces = front ++ piece :: back ∧
      front.flatten.length ≤ buffer.length ∧
        buffer.length < front.flatten.length + piece.length ∧
          putPieces pieces buffer = (false, Bytes.overlay buffer front.flatten) := by
  induction pieces generalizing buffer with
  | nil => exact absurd h (Nat.not_lt_zero _)
  | cons piece pieces ih =>
    by_cases hpiece : piece.length ≤ buffer.length
    · simp only [List.flatten_cons, List.length_append] at h
      have hrest : (buffer.drop piece.length).length < pieces.flatten.length := by
        rw [List.length_drop]
        omega
      obtain ⟨front, piece', back, rfl, hfront, hover, hput⟩ := ih _ hrest
      rw [List.length_drop] at hfront hover
      refine ⟨piece :: front, piece', back, rfl, ?_, ?_, ?_⟩
      · simp only [List.flatten_cons, List.length_append]
        omega
      · simp only [List.flatten_cons, List.length_append]
        omega
      · simp only [putPieces, if_pos hpiece, hput, Bytes.overlay, List.flatten_cons,
          List.length_append, List.drop_drop, List.append_assoc]
    · refine ⟨[], piece, pieces, rfl, Nat.zero_le _, ?_, ?_⟩
      · simp only [List.flatten_nil, List.length_nil]
        omega
      · simp only [putPieces, if_neg hpiece]
        rfl

end Rendering

end ManagementUnit
