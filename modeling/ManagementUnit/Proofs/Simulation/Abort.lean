/-
  ManagementUnit.Proofs.Simulation.Abort
  ────────────────────────────────
  What a transaction that ends in a fault leaves behind.

  A transaction clears the response register before it stores anything else, and
  only a command makes the register non-zero again.  If the register itself
  cannot be read or cleared, nothing has happened and the mailbox is as usable as
  before.  If the fault comes later, the register is at zero, no command was
  written, and the next transaction waits for an answer to nothing.  It gives up
  before it stores a word, so the register stays at zero, and the one after it
  fares no better.

  Main results:
    * `Trace.aborted`         — what the chip looks like behind a fault.
    * `World.Mute.transacted` — a mailbox with a zero in its response register
      keeps it through a transaction, which times out without a command
      (`World.Mute.rowed`: through any number of them).
    * `execute_after_abort`   — what is left behind a fault, and what the next
      transactions come to once the faults are gone.
-/
import ManagementUnit.Proofs.Simulation.Budget

namespace ManagementUnit.Simulation

/-! ## §1. Behind a fault. -/

namespace Served

variable {σ : Type} {firmware : Firmware σ} {c : Chip} {s : σ} {u' : Chip × σ}

/-- An operation that faults is about its own address, and does nothing. -/
theorem failed {op : Operation} {f : NetworkFault}
    (h : Served firmware (c, s) (op.failed f) u') :
    f.address = op.address ∧ u'.1.mailboxes = c.mailboxes ∧ u'.1.peek = c.peek ∧ u'.2 = s := by
  cases op with
  | read a =>
    cases h with
    | readFault h =>
      obtain ⟨-, rfl⟩ := Chip.read_eq_none_iff.1 h
      exact ⟨rfl, rfl, rfl, rfl⟩
  | write a v =>
    cases h with
    | writeFault h =>
      obtain ⟨-, rfl, rfl⟩ := Chip.write_eq_none_iff.1 h
      exact ⟨rfl, rfl, rfl, rfl⟩

end Served

/-- What a transaction on mailbox number `i` made of `u` when the fault `f` ended it:
the mailbox is as it was and no command went out; either nothing was stored, or the
response register is at zero. -/
structure Abandoned {σ : Type} (mb : Mailbox) (i : Nat) (f : NetworkFault) (u u' : Chip × σ) :
    Prop where
  own : f.address ∈ mb.registers.registers
  carries : u'.1.Carries i mb
  state : u'.2 = u.2
  commands : u'.1.commands = u.1.commands
  command : u'.1.peek mb.registers.command = u.1.peek mb.registers.command
  response : f.address = mb.registers.response ∧ u'.1.peek = u.1.peek ∨
    f.address ≠ mb.registers.response ∧ u'.1.peek mb.registers.response = 0

namespace Trace

variable {σ : Type} {firmware : Firmware σ} {c : Chip} {s : σ} {u' : Chip × σ} {i : Nat}
  {mb : Mailbox} {opcode : UInt32} {sent : Arguments} {budget : Nat} {as : List Access}

theorem readable_of_poll {b : RegisterBlock} {n : Nat} {v : UInt32}
    (h : Trace firmware (c, s) (b.poll n v) u') : b.response ∉ c.faultyReads := by
  obtain ⟨⟨c₁, s₁⟩, hzeros, hlast⟩ := h.split
  obtain ⟨hreads, -⟩ := hzeros.faults
  simp only at hreads
  intro hmem
  rw [← hreads] at hmem
  cases hlast.single.read_fault.1 hmem

/-- A fault does not come behind the request: the response register was read before,
and what can be read once can be read always. -/
theorem not_failed_completion {b : RegisterBlock} {n k : Nat} {v : UInt32} {ws : List Access}
    {f : NetworkFault} :
    ¬ Trace firmware (c, s)
      (b.poll n v ++ ws ++ b.zeroReads k ++ [(Operation.read b.response).failed f]) u' := by
  intro h
  obtain ⟨⟨c₁, s₁⟩, hdone, hlast⟩ := h.split
  have hreads : c₁.faultyReads = c.faultyReads := hdone.faults.1
  rw [List.append_assoc] at hdone
  obtain ⟨_, hpoll, -⟩ := hdone.split
  have hreadable : b.response ∉ c₁.faultyReads := hreads ▸ hpoll.readable_of_poll
  obtain ⟨_, hok⟩ := hlast.single.read_fault.2 hreadable
  cases hok

/-- So far the command register was not written, and a fault is no write either. -/
theorem unissued_failed {op : Operation} {f : NetworkFault} (hc : c.Carries i mb)
    (has : ∀ x ∈ as ++ [op.failed f], x.address ∈ mb.registers.registers)
    (hquiet : ∀ v, .write mb.registers.command v (.ok ()) ∉ as)
    (h : Trace firmware (c, s) (as ++ [op.failed f]) u') : u'.1.commands = c.commands := by
  refine h.unissued hc has fun v hmem => ?_
  rcases List.mem_append.1 hmem with hmem | hmem
  · exact hquiet v hmem
  · cases op <;> cases List.mem_singleton.1 hmem

/-- Behind a fault the mailbox is as it was, but for what was stored: nothing, if
the fault was at the response register, and otherwise a zero there. -/
theorem aborted {f : NetworkFault} (hc : c.Carries i mb) (hready : mb.neverReady = false)
    (hstall : mb.stall = 0) (hresponse : c.peek mb.registers.response ≠ 0)
    (hcourse : Course mb.registers opcode sent budget as (.error (.bus f)))
    (h : Trace firmware (c, s) as u') : Abandoned mb i f (c, s) u' := by
  have hidle : { mb with stall := 0 } = mb := by
    rw [← hstall]
  have has := hcourse.address_mem
  cases hcourse with
  | @faulted done op f hdue =>
    have hcommands := h.unissued_failed hc has
    obtain ⟨⟨c₁, s₁⟩, hdone, hlast⟩ := h.split
    obtain ⟨haddress, hmailboxes, hpeek, hs⟩ := hlast.single.failed
    have hown : f.address ∈ mb.registers.registers := haddress ▸ hdue.address_mem
    cases hdue with
    | gate n =>
      -- nothing was stored
      obtain ⟨-, hc₁, hpeek₁, rfl⟩ := hdone.zeroReads hc hready hresponse
      rw [hstall, Nat.zero_sub, hidle] at hc₁
      have hsame : u'.1.peek = c.peek := hpeek.trans hpeek₁
      exact ⟨hown, hc₁.ofMailboxes hmailboxes, hs, hcommands fun _ => write_not_mem_zeroReads n,
        congrFun hsame _, .inl ⟨haddress, hsame⟩⟩
    | @request n v a w before after hv hsplit =>
      obtain ⟨⟨c₀, s₀⟩, hpoll, hstored⟩ := hdone.split
      obtain ⟨-, -, hc₀, hpeek₀, rfl⟩ := hpoll.poll hc hready hresponse hv
      rw [hidle] at hc₀
      have hplain := RegisterBlock.plain_of_split hc.nodup hsplit
      obtain ⟨hc₁, hpeek₁, rfl⟩ := hstored.stored hc₀ hplain
      simp only at hpeek₀ hpeek₁
      have hstores : u'.1.peek = storeAll c.peek before := by
        rw [hpeek, hpeek₁, hpeek₀]
      refine ⟨hown, hc₁.ofMailboxes hmailboxes, hs,
        hcommands (command_not_mem_of_stored hc.nodup hsplit n v), ?_, ?_⟩
      · rw [hstores]
        exact storeAll_of_not_mem (RegisterBlock.command_not_mem_of_split hc.nodup hsplit) _
      rw [haddress, hstores]
      -- either the clear itself faulted, or it went through and nothing came over it
      rcases RegisterBlock.response_of_split hc.nodup hsplit with ⟨heq, rfl⟩ | ⟨hne, hzero⟩
      · exact .inl ⟨heq, rfl⟩
      · exact .inr ⟨hne, hzero _⟩
    | completion => exact absurd h not_failed_completion

end Trace

/-! ## §2. Repairs, and a mailbox that answers. -/

theorem Chip.heal_all (c : Chip) (addresses : List UInt32) :
    (addresses.foldl heal c).mailboxes = c.mailboxes ∧ (addresses.foldl heal c).peek = c.peek ∧
      (addresses.foldl heal c).commands = c.commands := by
  induction addresses generalizing c with
  | nil => exact ⟨rfl, rfl, rfl⟩
  | cons a rest ih => exact ih (c.heal a)

namespace World

variable {η : Type}

/-- The machine with some addresses repaired. -/
def heal (world : World η) (addresses : List UInt32) : World η :=
  { world with chip := addresses.foldl Chip.heal world.chip }

variable {firmware : Firmware (η × Memory)} {world : World η} {m : Mailboxes} {channel : Channel}
  {i : Nat} {mb : Mailbox} {opcode : UInt32} {sent : Arguments}

/-- A mailbox that works answers a transaction that may read the response
register often enough. -/
theorem result_answer (h : world.Through m.window) (hb : m.registers? channel = some mb.registers)
    (hc : world.chip.Carries i mb) (hready : mb.neverReady = false)
    (hworks : world.chip.Works mb.registers) (hresponse : world.chip.peek mb.registers.response ≠ 0)
    (hstatus : (mb.answer firmware opcode sent (world.firmware, world.memory)).status ≠ 0)
    (hbudget : mb.stall + mb.latency + 2 ≤ m.budget) :
    world.result firmware m channel opcode sent =
      (mb.answer firmware opcode sent (world.firmware, world.memory)).result := by
  have hx : world.chip.Shows i ⟨mb, world.chip.peek mb.registers.response⟩ := ⟨hc, hworks, rfl⟩
  rw [(concluded h hb hx firmware opcode sent).result,
    Standing.result_eq hready hresponse hstatus]
  exact if_pos hbudget

end World

/-! ## §3. A mailbox that has fallen silent. -/

theorem Standing.not_opens_zero (mb : Mailbox) (budget : Nat) :
    ¬ Standing.Opens ⟨mb, 0⟩ budget :=
  fun h => h.2.1 rfl

namespace World

variable {η : Type}

/-- The machine after a row of requests to one mailbox, each of which is a budget, an
opcode and words. -/
def afterRow (firmware : Firmware (η × Memory)) (world : World η) (m : Mailboxes)
    (channel : Channel) : List (Nat × UInt32 × Arguments) → World η
  | [] => world
  | (budget, opcode, sent) :: rest =>
    (world.after firmware { m with budget } channel opcode sent).afterRow firmware m channel rest

/-- Mailbox number `i` of a machine can be accessed, and has a zero in its response
register. -/
structure Mute (world : World η) (m : Mailboxes) (channel : Channel) (i : Nat) (mb : Mailbox) :
    Prop where
  through : world.Through m.window
  bound : m.registers? channel = some mb.registers
  shows : world.chip.Shows i ⟨mb, 0⟩

variable {firmware : Firmware (η × Memory)} {world : World η} {m : Mailboxes} {channel : Channel}
  {i : Nat} {mb : Mailbox}

/-- A transaction on such a mailbox times out, whatever its budget, and the mailbox
stays as it is, but for how long it stalls.  The firmware sees nothing of it. -/
theorem Mute.transacted (h : world.Mute m channel i mb) (firmware : Firmware (η × Memory))
    (budget : Nat) (opcode : UInt32) (sent : Arguments) :
    let world' := world.after firmware { m with budget } channel opcode sent
    world.result firmware { m with budget } channel opcode sent = .error .timeout ∧
      world'.chip.commands = world.chip.commands ∧ world'.state = world.state ∧
      world'.Mute m channel i (mb.waited budget) := by
  intro world'
  have hshut := Standing.not_opens_zero mb budget
  obtain ⟨hthrough, as, hcourse, hreads, htrace⟩ :=
    course_trace (m := { m with budget }) h.through h.bound firmware opcode sent
  obtain ⟨hresult, hshows, hstate⟩ := htrace.concluded h.shows hcourse hreads
  obtain ⟨-, hcommands⟩ := htrace.metered h.shows hcourse hreads
  rw [Standing.result, if_neg fun hall => hshut hall.1] at hresult
  rw [Standing.after, if_neg hshut] at hshows
  rw [Standing.firmwareAfter, if_neg hshut] at hstate
  rw [Standing.issues, if_neg hshut, List.append_nil] at hcommands
  exact ⟨hresult, hcommands, hstate, ⟨hthrough.window_eq, hthrough.proper⟩, h.bound, hshows⟩

/-- So do any number of them. -/
theorem Mute.rowed (h : world.Mute m channel i mb) (firmware : Firmware (η × Memory))
    (row : List (Nat × UInt32 × Arguments)) :
    let later := world.afterRow firmware m channel row
    later.chip.commands = world.chip.commands ∧ later.state = world.state ∧
      ∃ mb', mb'.registers = mb.registers ∧ later.Mute m channel i mb' := by
  induction row generalizing world mb with
  | nil => exact ⟨rfl, rfl, mb, rfl, h⟩
  | cons request rest ih =>
    obtain ⟨budget, opcode, sent⟩ := request
    obtain ⟨-, hcommands, hstate, hmute⟩ := h.transacted firmware budget opcode sent
    obtain ⟨hcommands', hstate', mb', hregisters, hmute'⟩ := ih hmute
    exact ⟨hcommands'.trans hcommands, hstate'.trans hstate, mb', hregisters, hmute'⟩

end World

/-! ## §4. The next transactions. -/

section

variable {η : Type} {firmware : Firmware (η × Memory)} {world : World η} {m : Mailboxes}
  {channel : Channel} {i : Nat} {mb : Mailbox}

/-- A transaction on an idle mailbox that ends in a fault has not written to the command
register.  Once the faults at the mailbox are gone, there are two cases.  If the fault
was at the response register, nothing was stored, and the next transaction gets its
answer.  Otherwise the response register was cleared.  It stays at zero through any row
of later transactions on the mailbox, none of which issues a command, and whatever comes
after them times out. -/
theorem execute_after_abort (hthrough : world.Through m.window)
    (hb : m.registers? channel = some mb.registers) (hc : world.chip.Carries i mb)
    (hready : mb.neverReady = false) (hstall : mb.stall = 0)
    (hresponse : world.chip.peek mb.registers.response ≠ 0)
    {opcode : UInt32} {sent : Arguments} {fault : NetworkFault}
    (hfailed : world.result firmware m channel opcode sent = .error (.bus fault))
    {addresses : List UInt32}
    (hhealed : ((world.after firmware m channel opcode sent).heal addresses).chip.Works
      mb.registers) :
    let left := world.after firmware m channel opcode sent
    let healed := left.heal addresses
    (fault.address ∈ mb.registers.registers ∧ left.state = world.state ∧
      left.chip.commands = world.chip.commands ∧
      left.chip.peek mb.registers.command = world.chip.peek mb.registers.command) ∧
    (fault.address = mb.registers.response →
      left.chip.peek = world.chip.peek ∧
      ∀ budget opcode' sent', mb.latency + 2 ≤ budget →
        (mb.answer firmware opcode' sent' world.state).status ≠ 0 →
        healed.result firmware { m with budget } channel opcode' sent' =
          (mb.answer firmware opcode' sent' world.state).result) ∧
    (fault.address ≠ mb.registers.response →
      left.chip.peek mb.registers.response = 0 ∧
      ∀ row, let later := healed.afterRow firmware m channel row
        later.chip.peek mb.registers.response = 0 ∧
        later.chip.commands = world.chip.commands ∧
        ∀ budget opcode' sent',
          later.result firmware { m with budget } channel opcode' sent' = .error .timeout) := by
  intro left healed
  obtain ⟨hthrough', as, hcourse, -, htrace⟩ :=
    World.course_trace hthrough hb firmware opcode sent
  rw [hfailed] at hcourse
  have hleft := htrace.aborted hc hready hstall hresponse hcourse
  -- repairs change neither the mailboxes nor what the registers hold, nor the record
  obtain ⟨hmailboxes, hpeek, hrecord⟩ := left.chip.heal_all addresses
  have hthrough₂ : healed.Through m.window := ⟨hthrough'.window_eq, hthrough'.proper⟩
  have hcarries : healed.chip.Carries i mb := hleft.carries.ofMailboxes hmailboxes
  have hstate : left.state = world.state := hleft.state
  refine ⟨⟨hleft.own, hstate, hleft.commands, hleft.command⟩, fun haddress => ?_,
    fun haddress => ?_⟩
  · obtain ⟨-, hkept⟩ := hleft.response.resolve_right fun h => h.1 haddress
    have hkept : left.chip.peek = world.chip.peek := hkept
    refine ⟨hkept, fun budget opcode' sent' hbudget hstatus => ?_⟩
    have hresponse' : healed.chip.peek mb.registers.response ≠ 0 := by
      rw [show healed.chip.peek = world.chip.peek from hpeek.trans hkept]
      exact hresponse
    rw [← hstate] at hstatus ⊢
    refine World.result_answer (m := { m with budget }) hthrough₂ hb hcarries hready hhealed
      hresponse' hstatus ?_
    show mb.stall + mb.latency + 2 ≤ budget
    omega
  · obtain ⟨-, hzero⟩ := hleft.response.resolve_left fun h => haddress h.1
    refine ⟨hzero, fun row => ?_⟩
    have hmute : healed.Mute m channel i mb :=
      ⟨hthrough₂, hb, hcarries, hhealed, (congrFun hpeek _).trans hzero⟩
    obtain ⟨hcommands, -, mb', hregisters, hlater⟩ := hmute.rowed firmware row
    refine ⟨hregisters ▸ hlater.shows.response, ?_, fun budget opcode' sent' => ?_⟩
    · exact hcommands.trans (hrecord.trans hleft.commands)
    · exact (hlater.transacted firmware budget opcode' sent').1

end

namespace Aborted

/-- A mailbox. -/
def mailbox : Mailbox := { registers := ⟨0x03B10524, 0x03B10570, 0x03B10A40⟩ }

/-- Firmware that answers every command with success and the words it was
sent. -/
def echo : Firmware (Unit × Memory) := fun _ _ words s => (some ⟨ResponseCode.ok, words⟩, s)

/-- The driver's side of a machine; it may read the response register twice. -/
def mailboxes : Mailboxes := ⟨.matisse, 2, .standard⟩

/-- An idle machine with one address that cannot be accessed. -/
def machine (address : UInt32) : World Unit where
  chip := (({} : Chip).attachAll .matisse).failAll address
  firmware := ()

/-- The machine after a transaction, with that address repaired. -/
def repaired (address : UInt32) : World Unit :=
  ((machine address).after echo mailboxes .rsmu 5 (.first 9)).heal [address]

/-- Where the response register could not be accessed, the next request is answered.
Where the fourth argument register could not, requests time out, the third one in a row
as the first. -/
theorem execute_after_abort_response :
    (repaired mailbox.registers.response).result echo mailboxes .rsmu 5 (.first 1) =
        .ok (.first 1) ∧
      ((repaired 0x03B10A4C).afterRow echo mailboxes .rsmu
        [(2, 5, .first 1), (40, 6, .zero)]).result echo ⟨.matisse, 90, .standard⟩ .rsmu 7
          (.first 2) = .error .timeout := by
  obtain ⟨i, hc⟩ := Chip.carries_attachAll (c := {}) rfl
    (show Codename.matisse.registers? .rsmu = some mailbox.registers from rfl)
  have hthrough : ∀ address, (machine address).Through mailboxes.window :=
    fun _ => ⟨rfl, by decide⟩
  have hcarries : ∀ address, (machine address).chip.Carries i mailbox :=
    fun _ => hc.ofMailboxes rfl
  have hresponse : ∀ address, (machine address).chip.peek mailbox.registers.response ≠ 0 :=
    fun _ => show ResponseCode.ok ≠ 0 by decide
  have hhealed : (repaired mailbox.registers.response).chip.Works mailbox.registers :=
    Chip.works_of_nil rfl rfl _
  have hhealed' : (repaired 0x03B10A4C).chip.Works mailbox.registers :=
    Chip.works_of_nil rfl rfl _
  obtain ⟨-, hanswered, -⟩ := execute_after_abort (hthrough _) rfl (hcarries _) rfl rfl
    (hresponse _) rfl hhealed
  obtain ⟨-, -, hsilent⟩ := execute_after_abort (hthrough _) rfl (hcarries _) rfl rfl
    (hresponse _) rfl hhealed'
  refine ⟨(hanswered rfl).2 2 5 (.first 1) (by decide) (by decide), ?_⟩
  exact ((hsilent (by decide)).2 _).2.2 90 7 (.first 2)

/-- If an argument register could not be written, no command was written either,
and yet the next request times out on a machine without faults. -/
theorem next_times_out :
    (machine 0x03B10A4C).result echo mailboxes .rsmu 5 (.first 9) =
        .error (.bus (.write 0x03B10A4C)) ∧
      (repaired 0x03B10A4C).chip.commands = [] ∧
      (repaired 0x03B10A4C).chip.Works mailbox.registers ∧
      (mailbox.answer echo 5 (.first 1) ((), {})).result = .ok (.first 1) ∧
      (repaired 0x03B10A4C).result echo mailboxes .rsmu 5 (.first 1) = .error .timeout :=
  ⟨rfl, rfl, Chip.works_of_nil rfl rfl _, rfl, rfl⟩

end Aborted
end ManagementUnit.Simulation
