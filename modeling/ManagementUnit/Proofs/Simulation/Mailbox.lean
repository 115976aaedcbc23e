/-
  ManagementUnit.Proofs.Simulation.Mailbox
  ────────────────────────────────
  Transactions on a simulated mailbox.

  A chip carries a mailbox (`Chip.Carries`) if the mailbox is on it and no other
  one has its command or response register in the same place.  Then each kind of
  access that a transaction makes has one effect, and the accesses of a whole
  transaction, which keep to a course, add up:

  · a response register that is not zero is read as zero exactly as often as the
    mailbox stalls, and then as it is;
  · a response register that is zero is read as zero forever, for nothing but a
    command changes it.

  Main results:
    * `Trace.poll`    — the response register is polled exactly as long as the mailbox
      stalls.
    * `Trace.started` — behind a poll and a whole request the answer is there.
    * `Trace.faultless` — where nothing faults, a transaction ends in one of four ways.
-/
import ManagementUnit.Proofs.Mailbox.Course
import ManagementUnit.Proofs.Simulation.Trace

namespace ManagementUnit.Simulation

/-! ## §1. A mailbox on a chip. -/

/-- Mailbox number `i` of a chip is `mb`, and no other mailbox has its command or
its response register among the registers of `mb`. -/
structure Chip.Carries (c : Chip) (i : Nat) (mb : Mailbox) : Prop where
  here : c.mailboxes[i]? = some mb
  apart : ∀ j other, c.mailboxes[j]? = some other → j ≠ i →
    other.registers.command ∉ mb.registers.registers ∧
      other.registers.response ∉ mb.registers.registers
  nodup : mb.registers.registers.Nodup

/-- If one element of a list has a property and no other one has it, it is the
first one that has it. -/
theorem findIdx?_of_unique {α : Type} {l : List α} {p : α → Bool} {i : Nat} {x : α}
    (h : l[i]? = some x) (hx : p x = true)
    (hother : ∀ j y, l[j]? = some y → j ≠ i → p y = false) : l.findIdx? p = some i := by
  obtain ⟨hi, hget⟩ := List.getElem?_eq_some_iff.1 h
  rw [List.findIdx?_eq_some_iff_getElem]
  refine ⟨hi, hget ▸ hx, ?_⟩
  intro j hj
  have hjl : j < l.length := by omega
  have := hother j l[j] (List.getElem?_eq_getElem hjl) (by omega)
  simp [this]

/-- The first element that has a property is at the first place that has it. -/
theorem findIdx?_of_find? {α : Type} {l : List α} {p : α → Bool} {x : α} (h : l.find? p = some x) :
    ∃ i, l.findIdx? p = some i ∧ l[i]? = some x := by
  obtain ⟨hx, i, hi, hget, hbefore⟩ := List.find?_eq_some_iff_getElem.1 h
  refine ⟨i, List.findIdx?_eq_some_iff_getElem.2 ⟨hi, hget ▸ hx, fun j hj => ?_⟩, ?_⟩
  · simpa using hbefore j hj
  · rw [List.getElem?_eq_getElem hi, hget]

namespace Chip.Carries

variable {c : Chip} {i : Nat} {mb : Mailbox}

/-- The mailbox is found by a register that no other one has. -/
theorem findIdx?_own (h : c.Carries i mb) {f : RegisterBlock → UInt32}
    (hown : f mb.registers ∈ mb.registers.registers)
    (hother : ∀ j other, c.mailboxes[j]? = some other → j ≠ i →
      f other.registers ∉ mb.registers.registers) :
    (c.mailboxes.findIdx? fun m => f m.registers == f mb.registers) = some i := by
  refine findIdx?_of_unique h.here (beq_self_eq_true _) ?_
  intro j other hj hne
  rw [beq_eq_false_iff_ne]
  intro heq
  exact hother j other hj hne (heq ▸ hown)

/-- No mailbox is found by another register of this one. -/
theorem findIdx?_other (h : c.Carries i mb) {f : RegisterBlock → UInt32} {a : UInt32}
    (ha : a ∈ mb.registers.registers) (hne : a ≠ f mb.registers)
    (hother : ∀ j other, c.mailboxes[j]? = some other → j ≠ i →
      f other.registers ∉ mb.registers.registers) :
    (c.mailboxes.findIdx? fun m => f m.registers == a) = none := by
  rw [List.findIdx?_eq_none_iff]
  intro other hmem
  obtain ⟨j, hj⟩ := List.mem_iff_getElem?.1 hmem
  rw [beq_eq_false_iff_ne]
  intro heq
  by_cases hji : j = i
  · rw [hji, h.here] at hj
    cases hj
    exact hne heq.symm
  · exact hother j other hj hji (heq ▸ ha)

theorem response_at (h : c.Carries i mb) :
    (c.mailboxes.findIdx? fun m => m.registers.response == mb.registers.response) = some i :=
  h.findIdx?_own (f := RegisterBlock.response) (by simp [RegisterBlock.registers])
    fun j other hj hne => (h.apart j other hj hne).2

theorem command_at (h : c.Carries i mb) : c.mailboxAt? mb.registers.command = some i :=
  h.findIdx?_own (f := RegisterBlock.command) (by simp [RegisterBlock.registers])
    fun j other hj hne => (h.apart j other hj hne).1

theorem no_response_at (h : c.Carries i mb) {a : UInt32} (ha : a ∈ mb.registers.registers)
    (hne : a ≠ mb.registers.response) :
    (c.mailboxes.findIdx? fun m => m.registers.response == a) = none :=
  h.findIdx?_other (f := RegisterBlock.response) ha hne
    fun j other hj hne => (h.apart j other hj hne).2

theorem no_command_at (h : c.Carries i mb) {a : UInt32} (ha : a ∈ mb.registers.registers)
    (hne : a ≠ mb.registers.command) : c.mailboxAt? a = none :=
  h.findIdx?_other (f := RegisterBlock.command) ha hne
    fun j other hj hne => (h.apart j other hj hne).1

/-- What it takes is a matter of the mailboxes alone. -/
theorem ofMailboxes (h : c.Carries i mb) {c' : Chip} (heq : c'.mailboxes = c.mailboxes) :
    c'.Carries i mb where
  here := heq ▸ h.here
  apart := heq ▸ h.apart
  nodup := h.nodup

theorem ofSet (h : c.Carries i mb) {c' : Chip} {mb' : Mailbox}
    (heq : c'.mailboxes = c.mailboxes.set i mb') (hregisters : mb'.registers = mb.registers) :
    c'.Carries i mb' where
  here := by
    rw [heq, List.getElem?_set_self]
    exact (List.getElem?_eq_some_iff.1 h.here).1
  apart := by
    intro j other hj hne
    rw [heq, List.getElem?_set_ne (Ne.symm hne)] at hj
    rw [hregisters]
    exact h.apart j other hj hne
  nodup := hregisters ▸ h.nodup

end Chip.Carries

/-! ## §2. Single accesses. -/

/-- What a mailbox answers to a command: a forced status hides the firmware's
own, and a command that the firmware does not know leaves the words alone. -/
def Mailbox.answer {σ : Type} (firmware : Firmware σ) (mb : Mailbox) (opcode : UInt32)
    (words : Arguments) (s : σ) : Answer :=
  let answered := (firmware mb.registers.command opcode words s).1
  ⟨mb.forced?.getD ((answered.map Answer.status).getD ResponseCode.unknownCommand),
    (answered.map Answer.words).getD words⟩

namespace Chip

variable {σ : Type} {c : Chip} {i : Nat} {mb : Mailbox}

theorem peek_poke_eq (c : Chip) (a v : UInt32) :
    (c.poke a v).peek = Function.update c.peek a v := by
  funext other
  rw [peek_poke, Function.update_apply]
  simp only [eq_comm]

theorem peek_storeWords (c : Chip) (b : RegisterBlock) (words : Arguments) :
    (c.storeWords b words).peek =
      storeAll c.peek (Arguments.positions.map fun i => (b.argument i.val, words.get i)) := by
  unfold storeWords
  induction Arguments.positions generalizing c with
  | nil => rfl
  | cons i rest ih =>
    rw [List.foldl_cons, ih, peek_poke_eq]
    rfl

theorem mailboxes_storeWords (c : Chip) (b : RegisterBlock) (words : Arguments) :
    (c.storeWords b words).mailboxes = c.mailboxes := by
  rw [storeWords_eq]

/-- The chip with an opcode in the command register of a mailbox. -/
def noted (c : Chip) (mb : Mailbox) (opcode : UInt32) : Chip :=
  (c.countWrite mb.registers.command).poke mb.registers.command opcode

namespace Carries

/-- Until the mailbox is ready its response register reads as zero, and such a read is one
that it waits for less; then the register reads as it is. -/
theorem read_response (hc : c.Carries i mb) (hworks : mb.registers.response ∉ c.faultyReads) :
    c.read mb.registers.response =
      if mb.neverReady then (some 0, c.countRead mb.registers.response)
      else if mb.stall = 0 then
        (some (c.peek mb.registers.response), c.countRead mb.registers.response)
      else
        (some 0, { c.countRead mb.registers.response with
          mailboxes := c.mailboxes.set i { mb with stall := mb.stall - 1 } }) := by
  unfold read
  dsimp only
  rw [if_neg hworks, hc.response_at]
  dsimp only
  rw [hc.here]

/-- Any other register reads as it is. -/
theorem read_register {a : UInt32} (hc : c.Carries i mb) (ha : a ∈ mb.registers.registers)
    (hne : a ≠ mb.registers.response) (hworks : a ∉ c.faultyReads) :
    c.read a = (some (c.peek a), c.countRead a) := by
  unfold read
  dsimp only
  rw [if_neg hworks, hc.no_response_at ha hne]

/-- An opcode that is written to the command register is stored and run. -/
theorem write_command (hc : c.Carries i mb) (hworks : mb.registers.command ∉ c.faultyWrites)
    (firmware : Firmware σ) (s : σ) (opcode : UInt32) :
    c.write firmware s mb.registers.command opcode =
      (some (), (c.noted mb opcode).runCommand firmware s i mb opcode) := by
  unfold write
  dsimp only
  rw [if_neg hworks, hc.command_at]
  dsimp only
  rw [hc.here]
  rfl

/-- A word that is written to any other register is stored. -/
theorem write_register {a : UInt32} (hc : c.Carries i mb) (ha : a ∈ mb.registers.registers)
    (hne : a ≠ mb.registers.command) (hworks : a ∉ c.faultyWrites) (firmware : Firmware σ) (s : σ)
    (v : UInt32) : c.write firmware s a v = (some (), (c.countWrite a).poke a v, s) := by
  unfold write
  dsimp only
  rw [if_neg hworks, hc.no_command_at ha hne]

end Carries

/-- The opcode itself is no argument. -/
theorem Carries.argumentWords_noted (hc : c.Carries i mb) (opcode : UInt32) :
    (c.noted mb opcode).argumentWords mb.registers = c.argumentWords mb.registers := by
  apply Arguments.ext_get
  intro j
  rw [argumentWords, argumentWords, Arguments.get_ofFn, Arguments.get_ofFn, noted, peek_poke,
    if_neg (RegisterBlock.command_ne_argument hc.nodup j)]
  rfl

/-- A command that a mailbox answers stores its answer, and the mailbox stalls
for as long as it does after each command; the firmware is where the command led
it. -/
theorem runCommand_answer (firmware : Firmware σ) (hc : c.Carries i mb)
    (hready : mb.neverReady = false) (s : σ) (opcode : UInt32) :
    let answer := mb.answer firmware opcode (c.argumentWords mb.registers) s
    (c.runCommand firmware s i mb opcode).1.Carries i { mb with stall := mb.latency } ∧
      (c.runCommand firmware s i mb opcode).1.peek =
        storeAll c.peek (mb.registers.reply answer.words answer.status) ∧
      (c.runCommand firmware s i mb opcode).2 =
        (firmware mb.registers.command opcode (c.argumentWords mb.registers) s).2 := by
  intro answer
  have hnot : ¬ mb.neverReady = true := by simp [hready]
  unfold runCommand
  rw [if_neg hnot]
  refine ⟨hc.ofSet ?_ rfl, ?_, rfl⟩
  · simp only [poke, mailboxes_storeWords]
  · simp only [peek_poke_eq, peek_storeWords, RegisterBlock.reply, storeAll_append]
    rfl

end Chip

namespace Served

variable {σ : Type} {firmware : Firmware σ} {c : Chip} {s : σ} {u' : Chip × σ} {i : Nat}
  {mb : Mailbox}

/-- The response register is read as it is once the mailbox does not stall any
more, and as zero before. -/
theorem readResponse {v : UInt32} (hc : c.Carries i mb) (hready : mb.neverReady = false)
    (h : Served firmware (c, s) (.read mb.registers.response (.ok v)) u') :
    u'.1.peek = c.peek ∧ u'.2 = s ∧
      (mb.stall = 0 ∧ v = c.peek mb.registers.response ∧ u'.1.Carries i mb ∨
        ∃ n, mb.stall = n + 1 ∧ v = 0 ∧ u'.1.Carries i { mb with stall := n }) := by
  cases h with
  | read h =>
    have hnot : ¬ mb.neverReady = true := by simp [hready]
    rw [hc.read_response (Chip.not_faulty_of_read h), if_neg hnot] at h
    by_cases hstall : mb.stall = 0
    · rw [if_pos hstall] at h
      cases h
      exact ⟨rfl, rfl, .inl ⟨hstall, rfl, hc.ofMailboxes rfl⟩⟩
    · rw [if_neg hstall] at h
      cases h
      refine ⟨rfl, rfl, .inr ⟨mb.stall - 1, by omega, rfl, ?_⟩⟩
      exact hc.ofSet rfl rfl

/-- Any other register is read as it is. -/
theorem readRegister {a v : UInt32} (hc : c.Carries i mb) (ha : a ∈ mb.registers.registers)
    (hne : a ≠ mb.registers.response) (h : Served firmware (c, s) (.read a (.ok v)) u') :
    u'.1.peek = c.peek ∧ u'.2 = s ∧ v = c.peek a ∧ u'.1.Carries i mb := by
  cases h with
  | read h =>
    rw [hc.read_register ha hne (Chip.not_faulty_of_read h)] at h
    cases h
    exact ⟨rfl, rfl, rfl, hc.ofMailboxes rfl⟩

/-- A word that is written to any register but the command register is
stored. -/
theorem writeRegister {a v : UInt32} (hc : c.Carries i mb) (ha : a ∈ mb.registers.registers)
    (hne : a ≠ mb.registers.command) (h : Served firmware (c, s) (.write a v (.ok ())) u') :
    u'.1.peek = Function.update c.peek a v ∧ u'.2 = s ∧ u'.1.Carries i mb := by
  cases h with
  | write h =>
    rw [hc.write_register ha hne (Chip.not_faulty_of_write h)] at h
    cases h
    exact ⟨Chip.peek_poke_eq .., rfl, hc.ofMailboxes rfl⟩

/-- An opcode that is written to the command register is stored and run. -/
theorem ranCommand {opcode : UInt32} (hc : c.Carries i mb)
    (h : Served firmware (c, s) (.write mb.registers.command opcode (.ok ())) u') :
    u' = (c.noted mb opcode).runCommand firmware s i mb opcode := by
  cases h with
  | write h =>
    rw [hc.write_command (Chip.not_faulty_of_write h)] at h
    exact (Prod.mk.inj h).2.symm

/-- So it is answered. -/
theorem writeCommand {opcode : UInt32} (hc : c.Carries i mb) (hready : mb.neverReady = false)
    (h : Served firmware (c, s) (.write mb.registers.command opcode (.ok ())) u') :
    let answer := mb.answer firmware opcode (c.argumentWords mb.registers) s
    u'.1.Carries i { mb with stall := mb.latency } ∧
      u'.1.peek = storeAll (Function.update c.peek mb.registers.command opcode)
        (mb.registers.reply answer.words answer.status) ∧
      u'.2 = (firmware mb.registers.command opcode (c.argumentWords mb.registers) s).2 := by
  have hnoted : (c.noted mb opcode).Carries i mb := hc.ofMailboxes rfl
  obtain ⟨hcarries, hpeek, hstate⟩ :=
    (c.noted mb opcode).runCommand_answer firmware hnoted hready s opcode
  rw [hc.argumentWords_noted] at hpeek hstate
  rw [h.ranCommand hc]
  refine ⟨hcarries, hpeek.trans ?_, hstate⟩
  rw [Chip.noted, Chip.peek_poke_eq]
  rfl

end Served

/-! ## §3. Accesses in a row. -/

/-- No register of a mailbox faults. -/
def Chip.Works (c : Chip) (b : RegisterBlock) : Prop :=
  ∀ a ∈ b.registers, a ∉ c.faultyReads ∧ a ∉ c.faultyWrites

theorem Chip.works_of_nil {c : Chip} (hreads : c.faultyReads = []) (hwrites : c.faultyWrites = [])
    (b : RegisterBlock) : c.Works b := by
  intro a _
  rw [hreads, hwrites]
  exact ⟨List.not_mem_nil, List.not_mem_nil⟩

namespace Trace

variable {σ : Type} {firmware : Firmware σ} {c : Chip} {s : σ} {u' : Chip × σ} {i : Nat}
  {mb : Mailbox}

/-- A response register that is not zero is read as zero at most as often as the
mailbox stalls. -/
theorem zeroReads {n : Nat} (hc : c.Carries i mb) (hready : mb.neverReady = false)
    (hresponse : c.peek mb.registers.response ≠ 0)
    (h : Trace firmware (c, s) (mb.registers.zeroReads n) u') :
    n ≤ mb.stall ∧ u'.1.Carries i { mb with stall := mb.stall - n } ∧ u'.1.peek = c.peek ∧
      u'.2 = s := by
  induction n generalizing c mb with
  | zero =>
    cases h
    exact ⟨Nat.zero_le _, hc, rfl, rfl⟩
  | succ n ih =>
    cases h with
    | @cons _ v _ _ _ hx h =>
      obtain ⟨c₁, s₁⟩ := v
      obtain ⟨hpeek, rfl, hcases⟩ := hx.readResponse hc hready
      rcases hcases with ⟨-, hzero, -⟩ | ⟨k, hstall, -, hc₁⟩
      · exact absurd hzero.symm hresponse
      · simp only at hpeek hc₁
        have hresponse₁ : c₁.peek mb.registers.response ≠ 0 := by rwa [hpeek]
        obtain ⟨hn, hcarries, hpeek', hs⟩ := ih hc₁ hready hresponse₁ h
        refine ⟨?_, ?_, hpeek'.trans hpeek, hs⟩
        · simp only at hn
          omega
        · have : mb.stall - (n + 1) = k - n := by omega
          rw [this]
          exact hcarries

/-- It is polled until the mailbox does not stall any more, and read as it is
then. -/
theorem poll {n : Nat} {v : UInt32} (hc : c.Carries i mb) (hready : mb.neverReady = false)
    (hresponse : c.peek mb.registers.response ≠ 0) (hv : v ≠ 0)
    (h : Trace firmware (c, s) (mb.registers.poll n v) u') :
    n = mb.stall ∧ v = c.peek mb.registers.response ∧ u'.1.Carries i { mb with stall := 0 } ∧
      u'.1.peek = c.peek ∧ u'.2 = s := by
  obtain ⟨⟨c₁, s₁⟩, hzeros, hlast⟩ := h.split
  obtain ⟨hn, hc₁, hpeek, rfl⟩ := hzeros.zeroReads hc hready hresponse
  obtain ⟨hpeek', hs, hcases⟩ := hlast.single.readResponse hc₁ hready
  simp only at hpeek hcases
  rcases hcases with ⟨hstall, hread, hc'⟩ | ⟨_, -, hzero, -⟩
  · rw [hpeek] at hread
    rw [hstall] at hc'
    exact ⟨by omega, hread, hc', hpeek'.trans hpeek, hs⟩
  · exact absurd hzero hv

/-- A response register that is zero is read as zero. -/
theorem poll_zero {n : Nat} {v : UInt32} (hc : c.Carries i mb) (hready : mb.neverReady = false)
    (hresponse : c.peek mb.registers.response = 0)
    (h : Trace firmware (c, s) (mb.registers.poll n v) u') : v = 0 := by
  induction n generalizing c s mb with
  | zero =>
    have hlast : Served firmware (c, s) (.read mb.registers.response (.ok v)) u' := single h
    obtain ⟨-, -, hcases⟩ := hlast.readResponse hc hready
    rcases hcases with ⟨-, hread, -⟩ | ⟨_, -, hzero, -⟩
    · exact hread.trans hresponse
    · exact hzero
  | succ n ih =>
    cases h with
    | @cons _ v₁ _ _ _ hx h =>
      obtain ⟨c₁, s₁⟩ := v₁
      obtain ⟨hpeek, -, hcases⟩ := hx.readResponse hc hready
      simp only at hpeek hcases
      have hresponse₁ : c₁.peek mb.registers.response = 0 := by rwa [hpeek]
      rcases hcases with ⟨-, -, hc₁⟩ | ⟨_, -, -, hc₁⟩
      · exact ih hc₁ hready hresponse₁ h
      · exact ih hc₁ hready hresponse₁ h

/-- Words that go to other registers than the command register are stored. -/
theorem stored {ws : List (UInt32 × UInt32)} (hc : c.Carries i mb)
    (hws : ∀ p ∈ ws, p.1 ∈ mb.registers.registers ∧ p.1 ≠ mb.registers.command)
    (h : Trace firmware (c, s) (ws.map Access.stored) u') :
    u'.1.Carries i mb ∧ u'.1.peek = storeAll c.peek ws ∧ u'.2 = s := by
  induction ws generalizing c with
  | nil =>
    cases h
    exact ⟨hc, rfl, rfl⟩
  | cons p rest ih =>
    cases h with
    | @cons _ v _ _ _ hx h =>
      obtain ⟨c₁, s₁⟩ := v
      obtain ⟨hmem, hne⟩ := hws p List.mem_cons_self
      obtain ⟨hpeek, rfl, hc₁⟩ := hx.writeRegister hc hmem hne
      simp only at hpeek hc₁
      obtain ⟨hc', hpeek', hs⟩ := ih hc₁ (fun q hq => hws q (List.mem_cons_of_mem _ hq)) h
      refine ⟨hc', ?_, hs⟩
      rw [hpeek', hpeek]
      rfl

/-- Before the opcode of a request is written, its words are in the argument
registers. -/
theorem front {sent : Arguments} (hc : c.Carries i mb)
    (h : Trace firmware (c, s) ((mb.registers.front sent).map Access.stored) u') :
    u'.1.Carries i mb ∧ u'.1.argumentWords mb.registers = sent ∧ u'.2 = s := by
  have hplain := RegisterBlock.plain_of_split hc.nodup (mb.registers.request_eq 0 sent)
  obtain ⟨hc', hpeek, hs⟩ := h.stored hc hplain
  have hnodup : ((mb.registers.front sent).map Prod.fst).Nodup := by
    have hfst : (mb.registers.front sent).map Prod.fst =
        mb.registers.response :: mb.registers.argumentRegisters := by
      simp [RegisterBlock.front, RegisterBlock.argumentRegisters, Function.comp_def]
    rw [hfst]
    exact (List.nodup_cons.1 hc.nodup).2
  refine ⟨hc', Arguments.ext_get fun j => ?_, hs⟩
  rw [Chip.argumentWords, Arguments.get_ofFn, hpeek]
  refine storeAll_of_mem hnodup ?_ _
  exact List.mem_cons_of_mem _ (List.mem_map.2 ⟨j, Arguments.mem_positions j, rfl⟩)

/-- A whole request is answered: status and words can be read off the registers, and
the firmware is where the command led it. -/
theorem request {opcode : UInt32} {sent : Arguments} (hc : c.Carries i mb)
    (hready : mb.neverReady = false)
    (h : Trace firmware (c, s) ((mb.registers.request opcode sent).map Access.stored) u') :
    u'.1.Carries i { mb with stall := mb.latency } ∧
      u'.1.peek mb.registers.response = (mb.answer firmware opcode sent s).status ∧
      (∀ j : Fin wordCount, u'.1.peek (mb.registers.argument j.val) =
        (mb.answer firmware opcode sent s).words.get j) ∧
      u'.2 = (firmware mb.registers.command opcode sent s).2 := by
  rw [RegisterBlock.request_eq, List.map_append] at h
  obtain ⟨⟨c₁, s₁⟩, hfront, hlast⟩ := h.split
  obtain ⟨hc₁, hwords, rfl⟩ := hfront.front hc
  obtain ⟨hc', hpeek', hstate⟩ := hlast.single.writeCommand hc₁ hready
  rw [hwords] at hpeek' hstate
  refine ⟨hc', ?_, fun j => ?_, hstate⟩
  · rw [hpeek']
    exact RegisterBlock.storeAll_reply_response hc.nodup ..
  · rw [hpeek']
    exact RegisterBlock.storeAll_reply_argument hc.nodup ..

/-- Argument registers that do not fault are read back as they are, and stay so. -/
theorem readArguments {outcomes : Fin wordCount → Except NetworkFault UInt32}
    {positions : List (Fin wordCount)} (hc : c.Carries i mb) (hworks : c.Works mb.registers)
    (h : Trace firmware (c, s)
      (positions.map fun j => .read (mb.registers.argument j.val) (outcomes j)) u') :
    u'.1.Carries i mb ∧ u'.1.peek = c.peek ∧ u'.2 = s ∧
      ∀ j ∈ positions, outcomes j = .ok (c.peek (mb.registers.argument j.val)) := by
  induction positions generalizing c s with
  | nil =>
    cases h
    exact ⟨hc, rfl, rfl, List.forall_mem_nil _⟩
  | cons k rest ih =>
    cases h with
    | @cons _ v _ _ _ hx h =>
      obtain ⟨c₁, s₁⟩ := v
      have hmem : mb.registers.argument k.val ∈ mb.registers.registers :=
        List.mem_cons_of_mem _ (List.mem_cons_of_mem _ (mb.registers.argument_mem k))
      have hne := (RegisterBlock.response_ne_argument hc.nodup k).symm
      obtain ⟨w, hw⟩ := hx.read_fault.2 (hworks _ hmem).1
      simp only [hw] at hx
      obtain ⟨hpeek, rfl, hread, hc₁⟩ := hx.readRegister hc hmem hne
      simp only at hpeek hc₁
      have hworks₁ : c₁.Works mb.registers := by
        obtain ⟨hreads, hwrites⟩ := hx.faults
        simp only at hreads hwrites
        intro a ha
        rw [hreads, hwrites]
        exact hworks a ha
      obtain ⟨hc', hpeek', hs, hrest⟩ := ih hc₁ hworks₁ h
      rw [hpeek] at hpeek' hrest
      exact ⟨hc', hpeek', hs, List.forall_mem_cons.2 ⟨by rw [hw, hread], hrest⟩⟩

/-- Where nothing faults, no operation does. -/
theorem not_failed {b : RegisterBlock} {as : List Access} {op : Operation} {f : NetworkFault}
    (hworks : c.Works b) (hop : op.address ∈ b.registers) :
    ¬ Trace firmware (c, s) (as ++ [op.failed f]) u' := by
  intro h
  obtain ⟨⟨c₁, s₁⟩, hdone, hlast⟩ := h.split
  obtain ⟨hreads, hwrites⟩ := hdone.faults
  simp only at hreads hwrites
  have hserved := hlast.single
  cases op with
  | read a =>
    have hno := (hworks a hop).1
    rw [← hreads] at hno
    obtain ⟨v, hv⟩ := hserved.read_fault.2 hno
    cases hv
  | write a v =>
    have hno := (hworks a hop).2
    rw [← hwrites] at hno
    cases hserved.write_fault.2 hno

end Trace

/-! ## §4. Transactions. -/

/-- The result of a transaction that gets an answer. -/
def Answer.result (a : Answer) : Except Failure Arguments :=
  if a.status = ResponseCode.ok then .ok a.words else .error (.rejected (Status.ofRaw a.status))

namespace Trace

variable {σ : Type} {firmware : Firmware σ} {c : Chip} {s : σ} {u' : Chip × σ} {i : Nat}
  {mb : Mailbox} {opcode : UInt32} {sent : Arguments} {as : List Access}

/-- Behind a poll and a whole request the answer is there, the firmware is where the
command led it, and the mailbox stalls once more. -/
theorem started {n : Nat} {v : UInt32} (hc : c.Carries i mb) (hready : mb.neverReady = false)
    (hresponse : c.peek mb.registers.response ≠ 0) (hv : v ≠ 0)
    (h : Trace firmware (c, s)
      (mb.registers.poll n v ++ (mb.registers.request opcode sent).map Access.stored ++ as) u') :
    n = mb.stall ∧ ∃ c',
      Trace firmware (c', (firmware mb.registers.command opcode sent s).2) as u' ∧
      c'.Carries i { mb with stall := mb.latency } ∧
      c'.peek mb.registers.response = (mb.answer firmware opcode sent s).status ∧
      (∀ j : Fin wordCount, c'.peek (mb.registers.argument j.val) =
        (mb.answer firmware opcode sent s).words.get j) ∧
      c'.faultyReads = c.faultyReads ∧ c'.faultyWrites = c.faultyWrites := by
  obtain ⟨⟨c', s'⟩, hfront, hrest⟩ := h.split
  have hfaults := hfront.faults
  obtain ⟨⟨c₁, s₁⟩, hpoll, hrequest⟩ := hfront.split
  obtain ⟨hn, -, hc₁, -, rfl⟩ := hpoll.poll hc hready hresponse hv
  obtain ⟨hc', hstatus, hwords, rfl⟩ := hrequest.request hc₁ hready
  exact ⟨hn, c', hrest, hc', hstatus, hwords, hfaults⟩

end Trace

/-- The courses on which nothing faults. -/
inductive Faultless (b : RegisterBlock) (opcode : UInt32) (sent : Arguments) (budget : Nat) :
    List Access → Except Failure Arguments → Prop where
  /-- The first poll takes the whole budget. -/
  | shut : Faultless b opcode sent budget (b.zeroReads budget) (.error .timeout)
  /-- The second one takes what the first one leaves. -/
  | unanswered {n k : Nat} {v : UInt32} (hv : v ≠ 0) (hspent : n + 1 + k = budget) :
      Faultless b opcode sent budget
        (b.poll n v ++ (b.request opcode sent).map Access.stored ++ b.zeroReads k)
        (.error .timeout)
  /-- Both end within it, on something other than success. -/
  | rejected {n k : Nat} {v raw : UInt32} (hv : v ≠ 0) (hraw : raw ≠ 0)
      (hfail : raw ≠ ResponseCode.ok) (hbudget : n + 1 + (k + 1) ≤ budget) :
      Faultless b opcode sent budget
        (b.poll n v ++ (b.request opcode sent).map Access.stored ++ b.poll k raw)
        (.error (.rejected (Status.ofRaw raw)))
  /-- Both end within it, on success. -/
  | answered {n k : Nat} {v : UInt32} (hv : v ≠ 0) (hbudget : n + 1 + (k + 1) ≤ budget)
      (outcomes : Fin wordCount → Except NetworkFault UInt32) :
      Faultless b opcode sent budget
        (b.poll n v ++ (b.request opcode sent).map Access.stored ++
          (b.poll k ResponseCode.ok ++ b.readBack outcomes))
        (.ok (sent.received outcomes))

/-- A transaction with a mailbox that does not fault keeps to one of them. -/
theorem Trace.faultless {σ : Type} {firmware : Firmware σ} {c : Chip} {s : σ} {u' : Chip × σ}
    {b : RegisterBlock} {opcode : UInt32} {sent : Arguments} {budget : Nat} {as : List Access}
    {r : Except Failure Arguments} (hworks : c.Works b) (hcourse : Course b opcode sent budget as r)
    (hreads : readCount b.response as ≤ budget) (h : Trace firmware (c, s) as u') :
    Faultless b opcode sent budget as r := by
  cases hcourse with
  | faulted f hdue => exact absurd h (not_failed hworks hdue.address_mem)
  | exhausted hdue hspent =>
    cases hdue with
    | gate n =>
      rw [readCount_zeroReads] at hspent
      subst hspent
      exact .shut
    | completion k hv =>
      simp only [readCount_append, readCount_poll, readCount_stored, readCount_zeroReads] at hspent
      exact .unanswered hv hspent
  | rejected hv hraw hfail =>
    simp only [readCount_append, readCount_poll, readCount_stored] at hreads
    exact .rejected hv hraw hfail hreads
  | answered hv outcomes =>
    simp only [readCount_append, readCount_poll, readCount_stored] at hreads
    rw [List.append_assoc]
    exact .answered hv (Nat.le_trans (Nat.le_add_right _ _) hreads) outcomes

/-! ## §5. The mailboxes of a generation. -/

namespace Chip

/-- A chip with just the mailboxes of a generation on it carries each of them. -/
theorem carries_of_perm {c : Chip} {codename : Codename} {channel : Channel} {b : RegisterBlock}
    (hb : codename.registers? channel = some b)
    (hattached : (c.mailboxes.map Mailbox.registers).Perm codename.blocks) {i : Nat} {mb : Mailbox}
    (hmb : c.mailboxes[i]? = some mb) (hregisters : mb.registers = b) : c.Carries i mb := by
  subst hregisters
  refine ⟨hmb, ?_, Codename.nodup_registers hb⟩
  intro j other hj hne
  have hother : other.registers ∈ codename.blocks :=
    hattached.mem_iff.1 (List.mem_map_of_mem (List.mem_of_getElem? hj))
  obtain ⟨k, -, hk⟩ := List.mem_filterMap.1 hother
  refine Codename.registers_apart hb hk ?_
  rintro rfl
  -- the registers of this mailbox are on the chip only once
  have hsame :
      (c.mailboxes.map Mailbox.registers)[j]? = (c.mailboxes.map Mailbox.registers)[i]? := by
    rw [List.getElem?_map, List.getElem?_map, hj, hmb]
    exact hk.symm.trans hb
  have hlength : j < (c.mailboxes.map Mailbox.registers).length := by
    rw [List.length_map]
    exact (List.getElem?_eq_some_iff.1 hj).1
  have hnodup := hattached.symm.nodup codename.nodup_blocks
  exact hne ((List.getElem?_inj hlength hnodup).1 hsame)

theorem exists_carries {c : Chip} {codename : Codename} {channel : Channel} {b : RegisterBlock}
    (hb : codename.registers? channel = some b)
    (hattached : (c.mailboxes.map Mailbox.registers).Perm codename.blocks) :
    ∃ i mb, c.Carries i mb ∧ mb.registers = b := by
  have hmem : b ∈ c.mailboxes.map Mailbox.registers :=
    hattached.mem_iff.2 (codename.mem_blocks hb)
  obtain ⟨mb, hmb, hregisters⟩ := List.mem_map.1 hmem
  obtain ⟨i, hi⟩ := List.mem_iff_getElem?.1 hmb
  exact ⟨i, mb, carries_of_perm hb hattached hi hregisters, hregisters⟩

/-- The mailboxes of a generation are added behind those that are there. -/
theorem mailboxes_attachAll (c : Chip) (codename : Codename) :
    (c.attachAll codename).mailboxes =
      c.mailboxes ++ codename.blocks.map fun b => { registers := b } := by
  unfold attachAll Codename.blocks
  induction [Channel.rsmu, .mp1].filterMap codename.registers? generalizing c with
  | nil => exact (List.append_nil _).symm
  | cons b rest ih =>
    rw [List.foldl_cons, ih]
    show (c.mailboxes ++ [_]) ++ _ = _
    rw [List.append_assoc]
    rfl

/-- A chip that got the mailboxes of a generation carries each of them. -/
theorem carries_attachAll {c : Chip} (hc : c.mailboxes = []) {codename : Codename}
    {channel : Channel} {b : RegisterBlock} (hb : codename.registers? channel = some b) :
    ∃ i, (c.attachAll codename).Carries i { registers := b } := by
  have hmailboxes := c.mailboxes_attachAll codename
  rw [hc, List.nil_append] at hmailboxes
  have hattached : (c.attachAll codename).mailboxes.map Mailbox.registers = codename.blocks := by
    rw [hmailboxes, List.map_map]
    exact List.map_id _
  have hmem : { registers := b } ∈ (c.attachAll codename).mailboxes := by
    rw [hmailboxes]
    exact List.mem_map_of_mem (codename.mem_blocks hb)
  obtain ⟨i, hi⟩ := List.mem_iff_getElem?.1 hmem
  exact ⟨i, carries_of_perm hb (.of_eq hattached) hi rfl⟩

end Chip
end ManagementUnit.Simulation
