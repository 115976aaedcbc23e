/-
  ManagementUnit.Processor.Codename
  ────────────────────────────────
  The processor generations whose management unit can be addressed.

  Every later lookup (mailbox registers, command numbers, table lengths) is
  keyed by a codename, so the set is closed: what is not listed here is not
  guessed at.

  Main results:
    * `ofOrdinal?_ordinal` — the ordinal names its codename.
    * `mem_supported_iff`  — every codename but `undefined` is supported.
-/

namespace ManagementUnit

/-- A processor generation.  `undefined` stands for "none of them". -/
inductive Codename where
  | undefined
  | colfax
  | renoir
  | picasso
  | matisse
  | threadripper
  | castlePeak
  | ravenRidge
  | ravenRidge2
  | summitRidge
  | pinnacleRidge
  | rembrandt
  | vermeer
  | vangogh
  | cezanne
  | milan
  | dali
  deriving DecidableEq

namespace Codename

/-- All generations that have a management unit, in the order of their
ordinals. -/
def supported : List Codename :=
  [colfax, renoir, picasso, matisse, threadripper, castlePeak, ravenRidge, ravenRidge2,
    summitRidge, pinnacleRidge, rembrandt, vermeer, vangogh, cezanne, milan, dali]

/-- The number reported for a codename across the driver boundary. -/
def ordinal : Codename → Nat
  | undefined => 0
  | colfax => 1
  | renoir => 2
  | picasso => 3
  | matisse => 4
  | threadripper => 5
  | castlePeak => 6
  | ravenRidge => 7
  | ravenRidge2 => 8
  | summitRidge => 9
  | pinnacleRidge => 10
  | rembrandt => 11
  | vermeer => 12
  | vangogh => 13
  | cezanne => 14
  | milan => 15
  | dali => 16

/-- The codename with a given ordinal. -/
def ofOrdinal? (n : Nat) : Option Codename := (undefined :: supported)[n]?

/-- The name of a generation, written as one word. -/
def name : Codename → String
  | undefined => "Undefined"
  | colfax => "Colfax"
  | renoir => "Renoir"
  | picasso => "Picasso"
  | matisse => "Matisse"
  | threadripper => "Threadripper"
  | castlePeak => "CastlePeak"
  | ravenRidge => "RavenRidge"
  | ravenRidge2 => "RavenRidge2"
  | summitRidge => "SummitRidge"
  | pinnacleRidge => "PinnacleRidge"
  | rembrandt => "Rembrandt"
  | vermeer => "Vermeer"
  | vangogh => "Vangogh"
  | cezanne => "Cezanne"
  | milan => "Milan"
  | dali => "Dali"

/-- The codename that is spelled `s`, `Undefined` included. -/
def ofName? (s : String) : Option Codename := (undefined :: supported).find? fun c => c.name == s

/-- The ordinal of a codename names it. -/
theorem ofOrdinal?_ordinal (c : Codename) : ofOrdinal? c.ordinal = some c := by
  cases c <;> rfl

/-- Every codename but `undefined` is supported. -/
theorem mem_supported_iff (c : Codename) : c ∈ supported ↔ c ≠ undefined := by
  cases c <;> decide

end Codename
end ManagementUnit
