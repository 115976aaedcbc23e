/-
  ManagementUnit.Time
  ────────────────────────────────
  Spans of time, counted in nanoseconds.

  Only differences between two clock readings mean anything, and a difference
  never goes below zero.

  Main results:
    * `clamp_mem`                 — a clamped span is in the range.
    * `ofParts_seconds_subsecond` — a span is its whole seconds and the rest.
-/

namespace ManagementUnit

/-- A span of time in nanoseconds. -/
structure Duration where
  nanos : Nat
  deriving DecidableEq

namespace Duration

/-- A span of whole seconds. -/
def ofSeconds (s : Nat) : Duration := ⟨s * 1000000000⟩

/-- A span of whole milliseconds. -/
def ofMillis (ms : Nat) : Duration := ⟨ms * 1000000⟩

/-- Whole seconds and a rest below one second. -/
def ofParts (seconds nanos : Nat) : Duration := ⟨seconds * 1000000000 + nanos⟩

/-- The whole seconds in a span. -/
def seconds (d : Duration) : Nat := d.nanos / 1000000000

/-- What is left of a span after its whole seconds. -/
def subsecond (d : Duration) : Nat := d.nanos % 1000000000

/-- The time from `earlier` to `later`; zero if they are the wrong way round. -/
def since (later earlier : Duration) : Duration := ⟨later.nanos - earlier.nanos⟩

/-- A span is at most another if it has at most as many nanoseconds. -/
instance : LE Duration := ⟨fun a b => a.nanos ≤ b.nanos⟩

/-- A span is shorter than another if it has fewer nanoseconds. -/
instance : LT Duration := ⟨fun a b => a.nanos < b.nanos⟩
instance (a b : Duration) : Decidable (a ≤ b) := inferInstanceAs (Decidable (a.nanos ≤ b.nanos))
instance (a b : Duration) : Decidable (a < b) := inferInstanceAs (Decidable (a.nanos < b.nanos))

/-- `d`, moved to the nearer end of the range from `lo` to `hi` if it lies
outside. -/
def clamp (d lo hi : Duration) : Duration :=
  if d < lo then lo else if hi < d then hi else d

/-- A clamped span is in the range. -/
theorem clamp_mem {lo hi : Duration} (h : lo ≤ hi) (d : Duration) :
    lo ≤ d.clamp lo hi ∧ d.clamp lo hi ≤ hi := by
  by_cases h₁ : d < lo
  · rw [clamp, if_pos h₁]
    exact ⟨Nat.le_refl _, h⟩
  · rw [clamp, if_neg h₁]
    by_cases h₂ : hi < d
    · rw [if_pos h₂]
      exact ⟨h, Nat.le_refl _⟩
    · rw [if_neg h₂]
      exact ⟨Nat.le_of_not_lt h₁, Nat.le_of_not_lt h₂⟩

/-- A span is its whole seconds and the rest. -/
theorem ofParts_seconds_subsecond (d : Duration) : ofParts d.seconds d.subsecond = d := by
  cases d with
  | mk n =>
    simp only [ofParts, seconds, subsecond, mk.injEq]
    omega

end Duration
end ManagementUnit
