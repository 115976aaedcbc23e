/-
  ManagementUnit.Text.Dump
  ────────────────────────────────
  Byte strings in a form that people can read: two hexadecimal digits for each
  byte, or the maximal runs of equal bytes for long strings with few changes.

  Main results:
    * `ofRuns_runs` — the runs of a string make it up again.
-/
import ManagementUnit.Bytes
import ManagementUnit.Text.Basic

namespace ManagementUnit

namespace Hex

/-- The value of a hexadecimal digit of either case. -/
def value? (c : Char) : Option Nat :=
  if '0' ≤ c ∧ c ≤ '9' then some (c.toNat - 48)
  else if 'a' ≤ c ∧ c ≤ 'f' then some (c.toNat - 87)
  else if 'A' ≤ c ∧ c ≤ 'F' then some (c.toNat - 55)
  else none

/-- The number that digits to a base stand for. -/
def number? (base : Nat) (cs : List Char) : Option Nat :=
  cs.foldlM (fun n c => (value? c).map (n * base + ·)) 0

end Hex

namespace Bytes

/-- Two digits for each byte. -/
def toHex (bs : Bytes) : String := String.join (bs.map fun b => Hex.padded 2 b.toNat)

/-- Reads two digits for each byte. -/
def ofHex? : List Char → Option Bytes
  | [] => some []
  | [_] => none
  | a :: b :: rest => do
    let high ← Hex.value? a
    let low ← Hex.value? b
    return UInt8.ofNat (high * 16 + low) :: (← ofHex? rest)

/-- Puts a byte in front of a row of runs. -/
def consRun (b : UInt8) : List (UInt8 × Nat) → List (UInt8 × Nat)
  | [] => [(b, 1)]
  | (c, n) :: rest => if b = c then (c, n + 1) :: rest else (b, 1) :: (c, n) :: rest

/-- The maximal runs of equal bytes, in order. -/
def runs (bs : Bytes) : List (UInt8 × Nat) := bs.foldr consRun []

/-- The byte string that a row of runs stands for. -/
def ofRuns (rs : List (UInt8 × Nat)) : Bytes := rs.flatMap fun r => List.replicate r.2 r.1

/-- A byte in front of a row of runs is a byte in front of its string. -/
theorem ofRuns_consRun (b : UInt8) (rs : List (UInt8 × Nat)) :
    ofRuns (consRun b rs) = b :: ofRuns rs := by
  cases rs with
  | nil => rfl
  | cons r rest =>
    obtain ⟨c, n⟩ := r
    simp only [consRun]
    split
    · next h => subst h; rfl
    · rfl

/-- The runs of a string make it up again. -/
theorem ofRuns_runs (bs : Bytes) : ofRuns bs.runs = bs := by
  induction bs with
  | nil => rfl
  | cons b bs ih =>
    have hstep : Bytes.runs (b :: bs) = consRun b (Bytes.runs bs) := rfl
    rw [hstep, ofRuns_consRun, ih]

end Bytes
end ManagementUnit
