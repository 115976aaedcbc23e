/-
  ManagementUnit.Proofs.Simulation.Isolation
  ────────────────────────────────
  Which registers of one mailbox a transaction on the other one leaves alone.

  A transaction changes nothing outside the registers of its own mailbox, whatever
  the firmware answers and wherever it breaks off.  The command and the response
  register of the other mailbox are never among these.  Its argument registers are,
  in the first generation: there the two argument blocks lie two words apart,

      general purpose     0  1  2  3  4  5
      power management          0  1  2  3  4  5

  and a transaction on either one overwrites four words of the other.  That makes no
  difference to any answer, for a transaction stores all of its words before it starts
  its command; but words that were left there do not stay.

  Main results:
    * `Codename.arguments_shared`  — which argument registers are shared.
    * `World.peek_after`           — a transaction stays within its own registers.
    * `World.registers_isolated`   — what stays of the other mailbox.
-/
import ManagementUnit.Proofs.Simulation.Abort
import ManagementUnit.Proofs.Simulation.Independence

namespace ManagementUnit

/-! ## §1. Shared registers. -/

/-- The mailboxes of a generation share argument registers only in the first one, and
there the blocks lie two words apart. -/
theorem Codename.arguments_shared {c : Codename} {r p : RegisterBlock}
    (hr : c.registers? .rsmu = some r) (hp : c.registers? .mp1 = some p) (i j : Fin wordCount) :
    r.argument i.val = p.argument j.val ↔ c.revision? = some .v9 ∧ i.val = j.val + 2 := by
  revert i j
  cases c <;> cases hr <;> cases hp <;> decide

/-- Elsewhere neither has an argument register of the other. -/
theorem Codename.arguments_apart {c : Codename} {channel other : Channel} {b b' : RegisterBlock}
    (h : c.registers? channel = some b) (h' : c.registers? other = some b') (hne : channel ≠ other)
    (hlater : c.revision? ≠ some .v9) (j : Fin wordCount) :
    b'.argument j.val ∉ b.argumentRegisters := by
  intro hmem
  obtain ⟨i, -, hi⟩ := List.mem_map.1 hmem
  cases channel <;> cases other
  · exact hne rfl
  · exact hlater ((arguments_shared h h' i j).1 hi).1
  · exact hlater ((arguments_shared h' h j i).1 hi.symm).1
  · exact hne rfl

/-- The command and the response register of one mailbox are no argument registers of
the other either. -/
theorem Codename.argument_not_mem {c : Codename} {channel other : Channel} {b b' : RegisterBlock}
    (h : c.registers? channel = some b) (h' : c.registers? other = some b') (hne : channel ≠ other)
    {j : Fin wordCount} (hj : b'.argument j.val ∉ b.argumentRegisters) :
    b'.argument j.val ∉ b.registers := by
  have happart := Codename.registers_apart h' h hne.symm
  have hown : b'.argument j.val ∈ b'.registers :=
    List.mem_cons_of_mem _ (List.mem_cons_of_mem _ (b'.argument_mem j))
  intro hmem
  rcases List.mem_cons.1 hmem with hcommand | hmem
  · exact happart.1 (hcommand ▸ hown)
  · rcases List.mem_cons.1 hmem with hresponse | hmem
    · exact happart.2 (hresponse ▸ hown)
    · exact hj hmem

namespace Simulation
namespace World

/-! ## §2. What stays. -/

variable {η : Type} {world : World η} {m : Mailboxes} {b : Channel → RegisterBlock}

/-- A transaction stays within the registers of its mailbox. -/
theorem peek_after (hthrough : world.Through m.window)
    (hb : ∀ channel, m.registers? channel = some (b channel))
    (hattached : (world.chip.mailboxes.map Mailbox.registers).Perm [b .rsmu, b .mp1])
    (firmware : Firmware (η × Memory)) (channel : Channel) (opcode : UInt32) (sent : Arguments)
    {a : UInt32} (ha : a ∉ (b channel).registers) :
    (world.after firmware m channel opcode sent).chip.peek a = world.chip.peek a := by
  obtain ⟨i, mb, hc, hregisters⟩ := carries_attached hb hattached channel
  obtain ⟨-, as, hcourse, -, htrace⟩ :=
    course_trace hthrough (hb channel) firmware opcode sent
  rw [← hregisters] at hcourse ha
  obtain ⟨-, -, -, hpeek⟩ := htrace.touched hc hcourse.address_mem
  exact hpeek a ha

/-- On a machine with both mailboxes of its generation, whatever the registers hold and
whatever faults, a transaction on one of them leaves the command and the response
register of the other one as they were, and each of its argument registers that the
two do not share.  Only in the first generation do they share any, the last four of
the one being the first four of the other; everywhere else all registers of the other
mailbox stay. -/
theorem registers_isolated (hthrough : world.Through m.window)
    (hb : ∀ channel, m.registers? channel = some (b channel))
    (hattached : (world.chip.mailboxes.map Mailbox.registers).Perm [b .rsmu, b .mp1])
    {channel other : Channel} (hne : channel ≠ other) (firmware : Firmware (η × Memory))
    (opcode : UInt32) (sent : Arguments) :
    let kept (a : UInt32) : Prop :=
      (world.after firmware m channel opcode sent).chip.peek a = world.chip.peek a
    kept (b other).command ∧ kept (b other).response ∧
      (∀ j : Fin wordCount, (b other).argument j.val ∉ (b channel).argumentRegisters →
        kept ((b other).argument j.val)) ∧
      (∀ i j : Fin wordCount, (b .rsmu).argument i.val = (b .mp1).argument j.val ↔
        m.codename.revision? = some .v9 ∧ i.val = j.val + 2) ∧
      (m.codename.revision? ≠ some .v9 → ∀ a ∈ (b other).registers, kept a) := by
  intro kept
  have hstays : ∀ a, a ∉ (b channel).registers → kept a := fun a ha =>
    peek_after hthrough hb hattached firmware channel opcode sent ha
  obtain ⟨hcommand, hresponse⟩ := Codename.registers_apart (hb channel) (hb other) hne
  have hargument : ∀ j : Fin wordCount, (b other).argument j.val ∉ (b channel).argumentRegisters →
      kept ((b other).argument j.val) := fun j hj =>
    hstays _ (Codename.argument_not_mem (hb channel) (hb other) hne hj)
  refine ⟨hstays _ hcommand, hstays _ hresponse, hargument,
    Codename.arguments_shared (hb .rsmu) (hb .mp1), ?_⟩
  intro hlater a ha
  rcases List.mem_cons.1 ha with rfl | ha
  · exact hstays _ hcommand
  · rcases List.mem_cons.1 ha with rfl | ha
    · exact hstays _ hresponse
    · obtain ⟨j, -, rfl⟩ := List.mem_map.1 ha
      exact hargument j (Codename.arguments_apart (hb channel) (hb other) hne hlater j)

end World

namespace Isolated

open Aborted (echo)

/-- A machine of a given generation with a word in one register. -/
def machine (c : Codename) (address value : UInt32) : World Unit where
  chip := (({} : Chip).attachAll c).poke address value
  firmware := ()

/-- The mailboxes of a later generation. -/
def registers : Channel → RegisterBlock
  | .rsmu => ⟨0x03B10524, 0x03B10570, 0x03B10A40⟩
  | .mp1 => ⟨0x03B10530, 0x03B1057C, 0x03B109C4⟩

/-- There the words of one mailbox stay. -/
theorem registers_isolated_later :
    let world := machine .matisse 0x03B109C4 77
    (world.after echo ⟨.matisse, 2, .standard⟩ .rsmu 5 (.pair 1 2)).chip.peek 0x03B109C4 = 77 := by
  have hb : ∀ channel,
      Mailboxes.registers? ⟨.matisse, 2, .standard⟩ channel = some (registers channel) := by
    intro channel
    cases channel <;> rfl
  have hthrough : (machine .matisse 0x03B109C4 77).Through .standard := ⟨rfl, by decide⟩
  have hne : Channel.rsmu ≠ .mp1 := by decide
  obtain ⟨-, -, -, -, hall⟩ :=
    World.registers_isolated hthrough hb (.refl _) hne echo 5 (.pair 1 2)
  exact hall (by decide) 0x03B109C4 (by decide)

/-- In the first generation they do not: the third word sent to the general purpose
mailbox takes the place of the first one of the other mailbox. -/
theorem argument_overwritten :
    let m : Mailboxes := ⟨.summitRidge, 2, .standard⟩
    let world := machine .summitRidge 0x03B10598 77
    world.Through m.window ∧
      (∀ channel, m.registers? channel = some (Overlap.registers channel)) ∧
      world.chip.mailboxes.map Mailbox.registers =
        [Overlap.registers .rsmu, Overlap.registers .mp1] ∧
      0x03B10598 ∈ (Overlap.registers .mp1).registers ∧ world.chip.peek 0x03B10598 = 77 ∧
      (world.after echo m .rsmu 5 (Arguments.zero.set 2 3)).chip.peek 0x03B10598 = 3 := by
  refine ⟨⟨rfl, by decide⟩, ?_, rfl, by decide, rfl, rfl⟩
  intro channel
  cases channel <;> rfl

end Isolated
end Simulation
end ManagementUnit
