/-
  ManagementUnit.Proofs.Session.Output
  ────────────────────────────────
  What showing an endpoint leaves in a buffer.

  Every endpoint but the table has a value: a string of bytes that the session and
  what is known of the processor determine.  Four values are texts, and a text reaches
  the buffer in pieces: the numbers of a version and the dots between them, a filling
  zero, the line feed.  The buffer may end between any two of them or within one.  The
  pieces are no part of what is shown: where the value fits, it is there as one string,
  and where it does not, there is a part of its front that is not all of it.

  Main results:
    * `Rendering.bytes_line`      — the pieces of a line make up its text.
    * `Session.rendering?_eq`     — each endpoint is written as its value says.
    * `Rendering.put_of_fits`, `Rendering.put_of_short` — what a value leaves in a buffer.
    * `endpoint_shown`            — so it is for every endpoint, and nothing else changes.
-/
import ManagementUnit.Proofs.Session.Course
import ManagementUnit.Simulation.World

namespace ManagementUnit

/-! ## §1. Values. -/

/-- Endpoints whose value is a text. -/
def Endpoint.isText : Endpoint → Bool
  | driverVersion | firmwareVersion | revision | codename => true
  | arguments | mp1Command | network | rsmuCommand | tableLength | table | tableFormat => false

/-- The value of an endpoint as one string; the table has none of its own. -/
def Session.value (s : Session) : Endpoint → Bytes
  | .driverVersion => Bytes.ofAscii "0.1.2\n"
  | .firmwareVersion => Bytes.ofAscii (s.driver.firmware.text ++ "\n")
  | .revision =>
    let ordinal? := s.driver.processor.codename.revision?.map Revision.ordinal
    Bytes.ofAscii (Decimal.digits (ordinal?.getD 0) ++ "\n")
  | .codename =>
    -- two digits, whether the first one is a zero or not
    let ordinal := s.driver.processor.codename.ordinal
    [UInt8.ofNat (0x30 + ordinal / 10), UInt8.ofNat (0x30 + ordinal % 10), 0x0A]
  | .arguments => s.slots.arguments.toBytes
  | .mp1Command | .rsmuCommand => Word.toBytes s.slots.response
  | .network => Word.toBytes s.slots.networkResult
  | .tableLength => LongWord.toBytes (s.driver.capabilities.tableLength?.getD 0)
  | .tableFormat => Word.toBytes (s.driver.capabilities.tableFormat?.getD 0)
  | .table => []

theorem Bytes.ofAscii_append (a b : String) : ofAscii (a ++ b) = ofAscii a ++ ofAscii b := by
  unfold ofAscii
  rw [String.toList_append, List.map_append]

namespace Rendering

/-- The pieces of a line make up its text. -/
theorem bytes_line (pieces : List String) :
    (line pieces).bytes = Bytes.ofAscii (String.join pieces ++ "\n") := by
  show ((pieces ++ ["\n"]).map Bytes.ofAscii).flatten = _
  induction pieces with
  | nil => rfl
  | cons piece pieces ih =>
    rw [List.cons_append, List.map_cons, List.flatten_cons, ih, String.join_cons,
      String.append_assoc, ← Bytes.ofAscii_append]

/-- The two digits of an ordinal. -/
theorem bytes_line_ordinal (c : Codename) :
    (line (Decimal.filledPieces 2 c.ordinal)).bytes =
      [UInt8.ofNat (0x30 + c.ordinal / 10), UInt8.ofNat (0x30 + c.ordinal % 10), 0x0A] := by
  cases c <;> rfl

end Rendering

/-- Each endpoint but the table is written as its value says, and in one piece unless it
is a text. -/
theorem Session.rendering?_eq (s : Session) {e : Endpoint} (he : e ≠ .table) :
    ∃ r, s.rendering? e = some r ∧ r.bytes = s.value e ∧
      (e.isText = false → r = .binary (s.value e)) := by
  cases e with
  | driverVersion => exact ⟨_, rfl, Rendering.bytes_line _, nofun⟩
  | firmwareVersion => exact ⟨_, rfl, Rendering.bytes_line _, nofun⟩
  | revision => exact ⟨_, rfl, Rendering.bytes_line _, nofun⟩
  | codename => exact ⟨_, rfl, Rendering.bytes_line_ordinal _, nofun⟩
  | table => exact absurd rfl he
  | arguments | mp1Command | network | rsmuCommand | tableLength | tableFormat =>
    exact ⟨_, rfl, rfl, fun _ => rfl⟩

/-! ## §2. Buffers. -/

namespace Rendering

variable {r : Rendering} {buffer : Bytes}

/-- A value that fits is at the front afterwards. -/
theorem put_of_fits (h : r.bytes.length ≤ buffer.length) :
    r.put buffer = (true, r.bytes ++ buffer.drop r.bytes.length) := by
  cases r with
  | text pieces => exact putPieces_of_fits pieces buffer h
  | binary bytes => exact if_pos h

/-- Of one that does not, some of the front is, but never all of it and nothing of a
binary value. -/
theorem put_of_short (h : buffer.length < r.bytes.length) :
    ∃ front, front <+: r.bytes ∧ front ≠ r.bytes ∧ front.length ≤ buffer.length ∧
      (r = .binary r.bytes → front = []) ∧
        r.put buffer = (false, front ++ buffer.drop front.length) := by
  cases r with
  | text pieces =>
    obtain ⟨front, piece, back, rfl, hfront, hover, hput⟩ := putPieces_of_short pieces buffer h
    refine ⟨front.flatten, ?_, ?_, hfront, nofun, hput⟩
    · show front.flatten <+: (front ++ piece :: back).flatten
      rw [List.flatten_append]
      exact List.prefix_append _ _
    · intro heq
      rw [← heq] at h
      omega
  | binary bytes =>
    refine ⟨[], List.nil_prefix, ?_, Nat.zero_le _, fun _ => rfl, if_neg (Nat.not_le.2 h)⟩
    intro heq
    rw [← heq] at h
    exact absurd h (Nat.not_lt_zero _)

end Rendering

/-- What showing the value of an endpoint in a buffer comes to. -/
structure Session.Fills (s : Session) (e : Endpoint) (buffer : Bytes)
    (outcome : Except EndpointError Nat) (filled : Bytes) : Prop where
  /-- It succeeds if and only if the value fits. -/
  fits_iff : outcome = .ok (s.value e).length ↔ (s.value e).length ≤ buffer.length
  /-- Nothing is written past the end. -/
  length_eq : filled.length = buffer.length
  /-- If it fits, the value is at the front and the rest is as it was. -/
  shown : (s.value e).length ≤ buffer.length →
    filled = s.value e ++ buffer.drop (s.value e).length
  /-- If it does not, this is reported, and what is at the front is not all of it. -/
  short : buffer.length < (s.value e).length →
    outcome = .error (.bufferTooSmall e) ∧
      ∃ front, front <+: s.value e ∧ front ≠ s.value e ∧
        filled = front ++ buffer.drop front.length ∧ (e.isText = false → front = [])

theorem Session.fills_of_put {s : Session} {e : Endpoint} {r : Rendering}
    (hvalue : r.bytes = s.value e) (hbinary : e.isText = false → r = .binary (s.value e))
    (buffer : Bytes) :
    s.Fills e buffer
      (if (r.put buffer).1 then .ok r.bytes.length else .error (.bufferTooSmall e))
      (r.put buffer).2 := by
  rw [← hvalue] at hbinary
  by_cases hfits : r.bytes.length ≤ buffer.length
  · rw [Rendering.put_of_fits hfits, if_pos rfl]
    rw [hvalue] at hfits ⊢
    exact {
      fits_iff := ⟨fun _ => hfits, fun _ => rfl⟩
      length_eq := length_overlay buffer _ hfits
      shown := fun _ => rfl
      short := fun hshort => absurd hfits (Nat.not_le.2 hshort) }
  · have hshort := Nat.not_le.1 hfits
    obtain ⟨front, hprefix, hne, hlength, hempty, hput⟩ := Rendering.put_of_short hshort
    rw [hput, if_neg Bool.false_ne_true]
    rw [hvalue] at hfits hprefix hne
    exact {
      fits_iff := ⟨nofun, fun h => absurd h hfits⟩
      length_eq := length_overlay buffer front hlength
      shown := fun h => absurd h hfits
      short := fun _ => ⟨rfl, front, hprefix, hne, rfl, fun h => hempty (hbinary h)⟩ }

/-! ## §3. Endpoints. -/

/-- On any platform, an endpoint that is present shows its value if the buffer holds all of
it, and part of it otherwise, and an endpoint that is not present shows nothing.  Neither
asks for anything, and neither changes the session or the driver. -/
theorem endpoint_shown {σ : Type} (platform : Platform σ) (t : σ) (s : Session) (e : Endpoint) :
    (s.isPresent e = true → e ≠ .table → ∀ buffer, ∃ outcome filled,
        ((Session.read e buffer).run s).run platform t = (((outcome, filled), s), t) ∧
          ((Session.read e buffer).run s).journal platform t = [] ∧
            s.Fills e buffer outcome filled) ∧
      (s.isPresent e = false → ∀ buffer,
        ((Session.read e buffer).run s).run platform t =
            (((.error (.unavailable e), buffer), s), t) ∧
          ((Session.read e buffer).run s).journal platform t = []) := by
  refine ⟨fun hpresent he buffer => ?_, fun habsent buffer => ?_⟩
  · obtain ⟨r, hrendering, hvalue, hbinary⟩ := s.rendering?_eq he
    rw [Session.run_read_of_rendering hpresent hrendering]
    exact ⟨_, _, rfl, rfl, Session.fills_of_put hvalue hbinary buffer⟩
  · rw [Session.run_read_of_absent habsent]
    exact ⟨rfl, rfl⟩

namespace Cramped

open Simulation

/-- A session on a driver for which only the power management mailbox works. -/
def session : Session := .start
  { processor := ⟨0x17, 0x71, 0, .am4, .matisse⟩
    settings := .standard
    mailboxes := ⟨.matisse, Settings.standard.budget, .standard⟩
    table := { codename := .matisse, interval := Settings.standard.interval }
    firmware := ⟨0x2E3E00⟩
    capabilities := {} }

/-- A machine that does nothing by itself. -/
def machine : World Unit where
  firmware := ()

/-- What reading an endpoint comes to on it. -/
def shown (e : Endpoint) (buffer : Bytes) :
    ((Except EndpointError Nat × Bytes) × Session) × World Unit :=
  ((Session.read e buffer).run session).run (World.platform fun _ _ _ s => (none, s)) machine

/-- In four bytes there is no room for a version of eight, and an endpoint that is not
there leaves them alone. -/
theorem endpoint_shown_cramped :
    (∃ filled front, shown .firmwareVersion [1, 2, 3, 4] =
        (((.error (.bufferTooSmall .firmwareVersion), filled), session), machine) ∧
      front <+: session.value .firmwareVersion ∧ filled = front ++ [1, 2, 3, 4].drop front.length) ∧
    shown .rsmuCommand [1, 2, 3, 4] =
      (((.error (.unavailable .rsmuCommand), [1, 2, 3, 4]), session), machine) := by
  refine ⟨?_, ?_⟩
  · obtain ⟨hshown, -⟩ := endpoint_shown (World.platform fun _ _ _ s => (none, s)) machine session
      .firmwareVersion
    obtain ⟨outcome, filled, hrun, -, hfills⟩ := hshown rfl (by decide) [1, 2, 3, 4]
    obtain ⟨rfl, front, hprefix, -, hfilled, -⟩ := hfills.short (by decide)
    exact ⟨filled, front, hrun, hprefix, hfilled⟩
  · obtain ⟨-, habsent⟩ := endpoint_shown (World.platform fun _ _ _ s => (none, s)) machine session
      .rsmuCommand
    exact (habsent rfl [1, 2, 3, 4]).1

-- the first number and the dot behind it are there, and the second number is not
example : (shown .firmwareVersion [1, 2, 3, 4]).1.1.2 = [0x34, 0x36, 0x2E, 4] := rfl

end Cramped
end ManagementUnit
