/-
  ManagementUnit.Driver.Settings
  ────────────────────────────────
  What can be chosen about the driver.

  A value out of range is moved to the nearer end of the range; nothing is
  refused.

  Main results:
    * `afterChoices_inRange` — whatever is chosen, the settings stay within
      their ranges.
-/
import ManagementUnit.Network.Basic
import ManagementUnit.Time

namespace ManagementUnit

/-- The choices the driver is started with. -/
structure Settings where
  /-- How often one transaction may read the response register. -/
  budget : Nat
  /-- How long a table transfer stays recent. -/
  interval : Duration
  /-- Where the management network is reached. -/
  window : Window
  deriving DecidableEq

namespace Settings

/-- The least retry budget. -/
def budgetMin : Nat := 500

/-- The greatest retry budget. -/
def budgetMax : Nat := 32768

/-- The retry budget if none is chosen. -/
def budgetDefault : Nat := 8192

/-- The shortest time for which a transfer stays recent. -/
def intervalMin : Duration := Duration.ofMillis 1

/-- The longest time for which a transfer stays recent. -/
def intervalMax : Duration := Duration.ofSeconds 60

/-- How long a transfer stays recent if nothing is chosen. -/
def intervalDefault : Duration := Duration.ofMillis 1

/-- The settings before anything is chosen. -/
def standard : Settings where
  budget := budgetDefault
  interval := intervalDefault
  window := .standard

/-- Chooses the retry budget. -/
def withBudget (s : Settings) (budget : Nat) : Settings :=
  { s with budget := if budget < budgetMin then budgetMin
      else if budgetMax < budget then budgetMax else budget }

/-- Chooses how long a transfer stays recent. -/
def withInterval (s : Settings) (interval : Duration) : Settings :=
  { s with interval := interval.clamp intervalMin intervalMax }

/-- Chooses the window. -/
def withWindow (s : Settings) (window : Window) : Settings := { s with window }

/-- One choice. -/
inductive Choice where
  | budget (budget : Nat)
  | interval (interval : Duration)
  | window (window : Window)
  deriving DecidableEq

/-- The settings after one more choice. -/
def choose (s : Settings) : Choice → Settings
  | .budget b => s.withBudget b
  | .interval i => s.withInterval i
  | .window p => s.withWindow p

/-- The settings after a row of choices, made in order. -/
def afterChoices (s : Settings) (choices : List Choice) : Settings := choices.foldl choose s

/-- Budget and interval are within their ranges. -/
def InRange (s : Settings) : Prop :=
  (budgetMin ≤ s.budget ∧ s.budget ≤ budgetMax)
    ∧ (intervalMin ≤ s.interval ∧ s.interval ≤ intervalMax)

/-- The defaults are within their ranges. -/
theorem standard_inRange : standard.InRange := by
  simp only [InRange]
  decide

/-- No choice leads out of the ranges. -/
theorem choose_inRange {s : Settings} (h : s.InRange) (c : Choice) : (s.choose c).InRange := by
  obtain ⟨hb, hi⟩ := h
  cases c with
  | budget b =>
    refine ⟨?_, hi⟩
    have hmax : budgetMin ≤ budgetMax := by decide
    simp only [choose, withBudget]
    split
    · exact ⟨Nat.le_refl _, hmax⟩
    · split
      · exact ⟨hmax, Nat.le_refl _⟩
      · omega
  | interval d =>
    refine ⟨hb, ?_⟩
    have hrange : intervalMin ≤ intervalMax := by decide
    exact Duration.clamp_mem hrange d
  | window p => exact ⟨hb, hi⟩

/-- No row of choices leads out of the ranges. -/
theorem afterChoices_inRange (choices : List Choice) {s : Settings} (h : s.InRange) :
    (s.afterChoices choices).InRange := by
  induction choices generalizing s with
  | nil => exact h
  | cons c cs ih => exact ih (choose_inRange h c)

end Settings
end ManagementUnit
