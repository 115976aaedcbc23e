/-
  ManagementUnit.Proofs.Mailbox.Registers
  ────────────────────────────────
  The eight registers of a mailbox are eight addresses.

  A transaction clears one register, fills six and starts the command with the
  eighth, and waits on the first of them all the time.  What it stores in one
  register must therefore not show in another.

  Main results:
    * `Codename.nodup_registers` — no mailbox of any generation has two registers at
      one address.
    * `storeAll_reply_response`, `storeAll_reply_argument` — an answer that is
      stored can be read off the registers.
-/
import Mathlib.Data.List.Nodup
import ManagementUnit.Mailbox.Arguments
import ManagementUnit.Mailbox.Channel

namespace ManagementUnit

/-! ## §1. The addresses. -/

theorem Arguments.mem_positions (i : Fin wordCount) : i ∈ Arguments.positions := by
  match i with
  | 0 | 1 | 2 | 3 | 4 | 5 => decide

theorem Arguments.nodup_positions : Arguments.positions.Nodup := by decide

namespace RegisterBlock

/-- The addresses of the argument registers, in order. -/
def argumentRegisters (b : RegisterBlock) : List UInt32 :=
  Arguments.positions.map fun i => b.argument i.val

/-- The addresses of all registers of a mailbox. -/
def registers (b : RegisterBlock) : List UInt32 :=
  b.command :: b.response :: b.argumentRegisters

variable {b : RegisterBlock}

theorem argument_mem (b : RegisterBlock) (i : Fin wordCount) :
    b.argument i.val ∈ b.argumentRegisters :=
  List.mem_map_of_mem (Arguments.mem_positions i)

theorem command_ne_response (h : b.registers.Nodup) : b.command ≠ b.response := by
  intro heq
  have := (List.nodup_cons.1 h).1
  rw [heq] at this
  exact this List.mem_cons_self

theorem command_ne_argument (h : b.registers.Nodup) (i : Fin wordCount) :
    b.command ≠ b.argument i.val := by
  intro heq
  have := (List.nodup_cons.1 h).1
  rw [heq] at this
  exact this (List.mem_cons_of_mem _ (b.argument_mem i))

theorem response_ne_argument (h : b.registers.Nodup) (i : Fin wordCount) :
    b.response ≠ b.argument i.val := by
  intro heq
  have := (List.nodup_cons.1 (List.nodup_cons.1 h).2).1
  rw [heq] at this
  exact this (b.argument_mem i)

theorem argument_inj (h : b.registers.Nodup) {i j : Fin wordCount}
    (heq : b.argument i.val = b.argument j.val) : i = j := by
  have hargs := (List.nodup_cons.1 (List.nodup_cons.1 h).2).2
  exact List.inj_on_of_nodup_map hargs (Arguments.mem_positions i) (Arguments.mem_positions j) heq

end RegisterBlock

/-- No mailbox of any generation has two registers at one address. -/
theorem Codename.nodup_registers {c : Codename} {channel : Channel} {b : RegisterBlock}
    (h : c.registers? channel = some b) : b.registers.Nodup := by
  cases c <;> cases channel <;> cases h <;> decide

/-- The two mailboxes of a generation may share argument registers, but neither
has its command or response register in the other. -/
theorem Codename.registers_apart {c : Codename} {channel other : Channel} {b b' : RegisterBlock}
    (h : c.registers? channel = some b) (h' : c.registers? other = some b')
    (hne : channel ≠ other) : b'.command ∉ b.registers ∧ b'.response ∉ b.registers := by
  cases c <;> cases channel <;> cases other <;>
    first
    | exact absurd rfl hne
    | cases h <;> cases h' <;> decide

/-- The registers of the mailboxes that a generation has. -/
def Codename.blocks (c : Codename) : List RegisterBlock :=
  [Channel.rsmu, .mp1].filterMap c.registers?

theorem Codename.mem_blocks (c : Codename) {channel : Channel} {b : RegisterBlock}
    (h : c.registers? channel = some b) : b ∈ c.blocks :=
  List.mem_filterMap.2 ⟨channel, by cases channel <;> decide, h⟩

/-- They are different ones. -/
theorem Codename.nodup_blocks (c : Codename) : c.blocks.Nodup := by
  cases c <;> decide

/-! ## §2. Storing words. -/

/-- Registers after some words were stored in order. -/
def storeAll (registers : UInt32 → UInt32) (ws : List (UInt32 × UInt32)) : UInt32 → UInt32 :=
  ws.foldl (fun r s => Function.update r s.1 s.2) registers

theorem storeAll_append (registers : UInt32 → UInt32) (ws ws' : List (UInt32 × UInt32)) :
    storeAll registers (ws ++ ws') = storeAll (storeAll registers ws) ws' :=
  List.foldl_append

theorem storeAll_of_not_mem {ws : List (UInt32 × UInt32)} {a : UInt32}
    (h : a ∉ ws.map Prod.fst) (registers : UInt32 → UInt32) :
    storeAll registers ws a = registers a := by
  induction ws generalizing registers with
  | nil => rfl
  | cons s rest ih =>
    rw [List.map_cons, List.mem_cons, not_or] at h
    show storeAll (Function.update registers s.1 s.2) rest a = registers a
    rw [ih h.2, Function.update_of_ne h.1]

theorem storeAll_of_mem {ws : List (UInt32 × UInt32)} {a v : UInt32}
    (hnodup : (ws.map Prod.fst).Nodup) (h : (a, v) ∈ ws) (registers : UInt32 → UInt32) :
    storeAll registers ws a = v := by
  induction ws generalizing registers with
  | nil => cases h
  | cons s rest ih =>
    rw [List.map_cons, List.nodup_cons] at hnodup
    show storeAll (Function.update registers s.1 s.2) rest a = v
    rcases List.mem_cons.1 h with rfl | h
    · rw [storeAll_of_not_mem hnodup.1, Function.update_self]
    · exact ih hnodup.2 h _

namespace RegisterBlock

/-- What the firmware stores, and where, to answer with `words` and `status`. -/
def reply (b : RegisterBlock) (words : Arguments) (status : UInt32) : List (UInt32 × UInt32) :=
  Arguments.positions.map (fun i => (b.argument i.val, words.get i)) ++ [(b.response, status)]

variable {b : RegisterBlock}

theorem nodup_reply (h : b.registers.Nodup) (words : Arguments) (status : UInt32) :
    ((b.reply words status).map Prod.fst).Nodup := by
  have hrest := (List.nodup_cons.1 h).2
  have hfst : (b.reply words status).map Prod.fst = b.argumentRegisters ++ [b.response] := by
    simp [reply, argumentRegisters, Function.comp_def]
  rw [hfst]
  exact (List.perm_append_singleton _ _).symm.nodup hrest

/-- After an answer the response register has its status. -/
theorem storeAll_reply_response (h : b.registers.Nodup) (words : Arguments) (status : UInt32)
    (registers : UInt32 → UInt32) :
    storeAll registers (b.reply words status) b.response = status := by
  refine storeAll_of_mem (nodup_reply h words status) ?_ registers
  simp [reply]

/-- After an answer each argument register has its word. -/
theorem storeAll_reply_argument (h : b.registers.Nodup) (words : Arguments) (status : UInt32)
    (registers : UInt32 → UInt32) (i : Fin wordCount) :
    storeAll registers (b.reply words status) (b.argument i.val) = words.get i := by
  refine storeAll_of_mem (nodup_reply h words status) ?_ registers
  refine List.mem_append_left _ (List.mem_map.2 ⟨i, Arguments.mem_positions i, rfl⟩)

end RegisterBlock
end ManagementUnit
