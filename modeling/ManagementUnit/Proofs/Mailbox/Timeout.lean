/-
  ManagementUnit.Proofs.Mailbox.Timeout
  ────────────────────────────────
  What a timeout says about the response register.

  A transaction that times out should have looked at the response register last
  and found it at zero, and if its command was written, it should have looked
  after that (`RegisterBlock.Silent`).  So it is, but for one case.  Both waits draw
  on one budget, and the first may end on the last unit of it: then the command is
  written all the same, nobody looks for the answer, and the transaction times out
  although the register was not zero whenever it counted.

      zero · zero · … · value · response ← 0 · arguments ← words · command ← opcode

  Main results:
    * `timeout_silent_iff`   — that is the only case in which a timeout is not
      borne out by what was read.
    * `World.result_spent`   — in that case the command is carried out and answered,
      and the transaction times out.
-/
import ManagementUnit.Driver.Settings
import ManagementUnit.Proofs.Simulation.Abort

namespace ManagementUnit

/-! ## §1. The last reading of a register. -/

/-- What an access reads from a given register. -/
def Access.reading? (address : UInt32) : Access → Option (Except NetworkFault UInt32)
  | read a outcome => if a = address then some outcome else none
  | write .. => none

/-- How the last read of a given register among the accesses `as` ended. -/
def lastReading? (address : UInt32) (as : List Access) : Option (Except NetworkFault UInt32) :=
  (as.filterMap (Access.reading? address)).getLast?

section Readings

variable {b : RegisterBlock} {as : List Access}

theorem lastReading?_read (as : List Access) (address : UInt32)
    (outcome : Except NetworkFault UInt32) :
    lastReading? address (as ++ [.read address outcome]) = some outcome := by
  simp [lastReading?, Access.reading?]

theorem lastReading?_stored (as : List Access) (address : UInt32) (ws : List (UInt32 × UInt32)) :
    lastReading? address (as ++ ws.map Access.stored) = lastReading? address as := by
  have hnone : (ws.map Access.stored).filterMap (Access.reading? address) = [] := by
    rw [List.filterMap_eq_nil_iff]
    intro x hx
    obtain ⟨p, -, rfl⟩ := List.mem_map.1 hx
    rfl
  rw [lastReading?, List.filterMap_append, hnone, List.append_nil, lastReading?]

theorem lastReading?_zeroReads (as : List Access) (n : Nat) :
    lastReading? b.response (as ++ b.zeroReads (n + 1)) = some (.ok 0) := by
  rw [RegisterBlock.zeroReads, List.replicate_succ', ← List.append_assoc]
  exact lastReading?_read _ _ _

theorem lastReading?_poll (as : List Access) (n : Nat) (v : UInt32) :
    lastReading? b.response (as ++ b.poll n v) = some (.ok v) := by
  rw [RegisterBlock.poll, ← List.append_assoc]
  exact lastReading?_read _ _ _

end Readings

/-! ## §2. Timeouts that are borne out. -/

/-- Going by the accesses `as`, the firmware has not answered. -/
structure RegisterBlock.Silent (b : RegisterBlock) (opcode : UInt32) (as : List Access) :
    Prop where
  /-- The response register was at zero when it was read last. -/
  last : lastReading? b.response as = some (.ok 0)
  /-- If the command was written, the register was read after that. -/
  answer : ∀ before after, as = before ++ .write b.command opcode (.ok ()) :: after →
    lastReading? b.response after = some (.ok 0)

section Silence

variable {b : RegisterBlock} {opcode : UInt32} {sent : Arguments} {budget : Nat}
  {as : List Access}

/-- Behind a poll, the command is written once, at the end of the request. -/
theorem after_command (hnodup : b.registers.Nodup) {n k : Nat} {v : UInt32}
    {before after : List Access}
    (h : b.poll n v ++ (b.request opcode sent).map Access.stored ++ b.zeroReads k =
      before ++ .write b.command opcode (.ok ()) :: after) :
    after = b.zeroReads k := by
  obtain ⟨front, hfront, hwhole⟩ :=
    exists_front_of_request hnodup n v opcode sent (b.zeroReads k)
  rw [hwhole] at h
  exact ((List.append_cons_inj_of_notMem (hfront opcode) (write_not_mem_zeroReads k)).1 h).2.2.symm

/-- A course that ends in a timeout bears it out, unless the first poll took the
whole budget and was answered. -/
theorem Course.silent_iff (hnodup : b.registers.Nodup) (hbudget : 0 < budget)
    (hcourse : Course b opcode sent budget as (.error .timeout)) :
    b.Silent opcode as ↔
      ∀ v ≠ 0, as ≠ b.poll (budget - 1) v ++ (b.request opcode sent).map Access.stored := by
  cases hcourse with
  | exhausted hdue hspent =>
    cases hdue with
    | gate n =>
      -- nothing was written, and all of the budget went into zeros
      rw [readCount_zeroReads] at hspent
      obtain ⟨n, rfl⟩ : ∃ n', n = n' + 1 := ⟨n - 1, by omega⟩
      refine ⟨fun _ v hv heq => ?_, fun _ => ⟨lastReading?_zeroReads [] n, ?_⟩⟩
      · have hlast := congrArg (lastReading? b.response) heq
        rw [lastReading?_stored] at hlast
        have hpoll : lastReading? b.response (b.poll (budget - 1) v) = some (.ok v) :=
          lastReading?_poll [] _ v
        have hzero : lastReading? b.response (b.zeroReads (n + 1)) = some (.ok 0) :=
          lastReading?_zeroReads [] n
        rw [hpoll, hzero] at hlast
        cases hlast
        exact hv rfl
      · intro before after heq
        have hmem := List.mem_append_right before
          (List.mem_cons_self (a := .write b.command opcode (.ok ())) (l := after))
        rw [← heq] at hmem
        exact absurd hmem (write_not_mem_zeroReads _)
    | @completion n v k hv =>
      simp only [readCount_append, readCount_poll, readCount_stored, readCount_zeroReads] at hspent
      cases k with
      | zero =>
        -- the last unit of the budget was what the first poll needed
        have hn : n = budget - 1 := by omega
        refine ⟨fun h => ?_, fun h => absurd ?_ (h v hv)⟩
        · have hlast := h.last
          rw [RegisterBlock.zeroReads, List.replicate_zero, List.append_nil,
            lastReading?_stored] at hlast
          have hpoll : lastReading? b.response (b.poll n v) = some (.ok v) :=
            lastReading?_poll [] n v
          rw [hpoll] at hlast
          cases hlast
          exact absurd rfl hv
        · rw [hn]
          exact List.append_nil _
      | succ k =>
        refine ⟨fun _ u hu heq => ?_, fun _ => ⟨lastReading?_zeroReads _ k, ?_⟩⟩
        · have hlast := congrArg (lastReading? b.response) heq
          have hpoll : lastReading? b.response (b.poll (budget - 1) u) = some (.ok u) :=
            lastReading?_poll [] _ u
          rw [lastReading?_zeroReads, lastReading?_stored, hpoll] at hlast
          cases hlast
          exact hu rfl
        · intro before after heq
          rw [after_command hnodup heq]
          exact lastReading?_zeroReads [] k

theorem fault?_zeroReads (n : Nat) : ∀ x ∈ b.zeroReads n, x.fault? = none := by
  intro x hx
  rw [(List.mem_replicate.1 hx).2]
  rfl

theorem fault?_poll_stored (n : Nat) (v : UInt32) (ws : List (UInt32 × UInt32)) :
    ∀ x ∈ b.poll n v ++ ws.map Access.stored, x.fault? = none := by
  intro x hx
  rcases List.mem_append.1 hx with hx | hx
  · rcases List.mem_append.1 hx with hx | hx
    · exact fault?_zeroReads n x hx
    · rw [List.mem_singleton.1 hx]
      rfl
  · obtain ⟨p, -, rfl⟩ := List.mem_map.1 hx
    rfl

/-- The accesses of a course that ends in a timeout all went through. -/
theorem Course.fault?_of_timeout (hcourse : Course b opcode sent budget as (.error .timeout)) :
    ∀ x ∈ as, x.fault? = none := by
  cases hcourse with
  | exhausted hdue =>
    cases hdue with
    | gate n => exact fault?_zeroReads n
    | completion k hv =>
      intro x hx
      rcases List.mem_append.1 hx with hx | hx
      · exact fault?_poll_stored _ _ _ x hx
      · exact fault?_zeroReads k x hx

end Silence

/-! ## §3. Timeouts on any platform. -/

/-- A transaction that times out has read the response register as often as its
budget says, and met no fault.  What it read bears the timeout out exactly if it
is not the case that the first wait ended on the last unit of the budget; in that
case the command was written and nothing was read after it. -/
theorem timeout_silent_iff {σ : Type} (platform : Platform σ) (s : σ) (m : Mailboxes)
    (hbudget : 0 < m.budget) (channel : Channel) (opcode : UInt32) (sent : Arguments)
    (htimeout : ((m.execute channel opcode sent).run.run platform s).1 = .error .timeout) :
    ∃ b as, m.registers? channel = some b ∧
      Traffic m.window ((m.execute channel opcode sent).run.journal platform s) as ∧
      readCount b.response as = m.budget ∧ (∀ x ∈ as, x.fault? = none) ∧
      (b.Silent opcode as ↔
        ∀ v ≠ 0, as ≠ b.poll (m.budget - 1) v ++ (b.request opcode sent).map Access.stored) := by
  obtain ⟨as, has, hcourse⟩ := execute_course platform s m channel opcode sent
  rw [htimeout] at hcourse
  cases hb : m.registers? channel with
  | none =>
    rw [hb] at hcourse
    cases hcourse.2
  | some b =>
    rw [hb] at hcourse
    obtain ⟨hcourse, -⟩ := hcourse
    refine ⟨b, as, rfl, has, ?_, hcourse.fault?_of_timeout,
      hcourse.silent_iff (Codename.nodup_registers hb) hbudget⟩
    cases hcourse with
    | exhausted hdue hspent => exact hspent

/-! ## §4. The budget spent at the gate. -/

namespace Simulation

/-- If the mailbox stalls just so long that the first poll takes the whole budget,
the command is carried out and answered, and nobody looks. -/
theorem Trace.spent {σ : Type} {firmware : Firmware σ} {c : Chip} {s : σ} {u' : Chip × σ} {i : Nat}
    {mb : Mailbox} {opcode : UInt32} {sent : Arguments} {budget : Nat} {as : List Access}
    {r : Except Failure Arguments} (hc : c.Carries i mb) (hready : mb.neverReady = false)
    (hworks : c.Works mb.registers) (hresponse : c.peek mb.registers.response ≠ 0)
    (hbudget : mb.stall + 1 = budget)
    (hcourse : Course mb.registers opcode sent budget as r)
    (hreads : readCount mb.registers.response as ≤ budget) (h : Trace firmware (c, s) as u') :
    r = .error .timeout ∧
      as = mb.registers.poll (budget - 1) (c.peek mb.registers.response) ++
        (mb.registers.request opcode sent).map Access.stored ∧
      u'.1.peek mb.registers.response = (mb.answer firmware opcode sent s).status := by
  cases h.faultless hworks hcourse hreads with
  | shut =>
    -- the stall ends before the budget does
    obtain ⟨hn, -⟩ := h.zeroReads hc hready hresponse
    omega
  | @unanswered n k v hv hspent =>
    obtain ⟨⟨c₁, s₁⟩, hfront, hzeros⟩ := h.split
    obtain ⟨⟨c₀, s₀⟩, hpoll, hrequest⟩ := hfront.split
    obtain ⟨hn, hread, hc₀, -, rfl⟩ := hpoll.poll hc hready hresponse hv
    obtain ⟨-, hstatus, -⟩ := hrequest.request hc₀ hready
    obtain rfl : k = 0 := by omega
    have hbudget' : n = budget - 1 := by omega
    refine ⟨rfl, ?_, ?_⟩
    · rw [hbudget', hread]
      exact List.append_nil _
    · cases hzeros
      exact hstatus
  | rejected hv | answered hv =>
    -- one more read of the response register than the budget covers
    obtain ⟨hn, -⟩ := h.started hc hready hresponse hv
    omega

/-- So it is on a machine. -/
theorem World.result_spent {η : Type} {firmware : Firmware (η × Memory)} {world : World η}
    {m : Mailboxes} {channel : Channel} {i : Nat} {mb : Mailbox} {opcode : UInt32}
    {sent : Arguments} (h : world.Through m.window)
    (hb : m.registers? channel = some mb.registers) (hc : world.chip.Carries i mb)
    (hready : mb.neverReady = false) (hworks : world.chip.Works mb.registers)
    (hresponse : world.chip.peek mb.registers.response ≠ 0)
    (hbudget : mb.stall + 1 = m.budget) :
    world.result firmware m channel opcode sent = .error .timeout ∧
      (world.after firmware m channel opcode sent).chip.peek mb.registers.response =
        (mb.answer firmware opcode sent (world.firmware, world.memory)).status ∧
      Traffic m.window ((m.execute channel opcode sent).run.journal (platform firmware) world)
        (mb.registers.poll (m.budget - 1) (world.chip.peek mb.registers.response) ++
          (mb.registers.request opcode sent).map Access.stored) := by
  let p := (m.execute channel opcode sent).run
  have hreach := Program.reaches_journal (platform firmware) p world
  obtain ⟨as, has, hcourse, hreads⟩ := conducts_execute hb opcode sent _ _ hreach
  obtain ⟨htrace, -⟩ := has.trace h (.ofJournal p world)
  obtain ⟨hresult, rfl, hstatus⟩ :=
    htrace.spent hc hready hworks hresponse hbudget hcourse hreads
  exact ⟨hresult, hstatus, has⟩

namespace Spent

open Aborted (echo)

/-- A mailbox that is found idle by the five hundredth read of its response
register. -/
def mailbox : Mailbox := { registers := ⟨0x03B10524, 0x03B10570, 0x03B10A40⟩, stall := 499 }

/-- A machine without faults that has this mailbox, with a given value in its
response register. -/
def machine (response : UInt32) : World Unit where
  chip := { ({} : Chip).poke mailbox.registers.response response with mailboxes := [mailbox] }
  firmware := ()

/-- The driver's side of a machine. -/
def mailboxes (budget : Nat) : Mailboxes := ⟨.matisse, budget, .standard⟩

/-- Where the response register stays at zero, a timeout is borne out. -/
theorem timeout_silent_iff_unanswered :
    (machine 0).result echo (mailboxes 2) .rsmu 5 (.first 9) = .error .timeout ∧
      ∃ as, Traffic .standard (((mailboxes 2).execute .rsmu 5 (.first 9)).run.journal
        (World.platform echo) (machine 0)) as ∧ mailbox.registers.Silent 5 as := by
  obtain ⟨b, as, hb, has, -, -, hsilent⟩ := timeout_silent_iff (World.platform echo) (machine 0)
    (mailboxes 2) (by decide) .rsmu 5 (.first 9) rfl
  cases hb
  refine ⟨rfl, as, has, hsilent.2 fun v _ heq => ?_⟩
  -- the journal is two reads behind a note, and no command was written
  have hzeros : Traffic .standard (((mailboxes 2).execute .rsmu 5 (.first 9)).run.journal
      (World.platform echo) (machine 0)) (mailbox.registers.zeroReads 2) :=
    .note _ (.ofEvents (fault?_zeroReads 2))
  have hlength := congrArg List.length (has.eq_of_faultless hzeros (fault?_zeroReads 2))
  rw [heq] at hlength
  cases hlength

/-- With the least budget that can be set, a command is written with nothing left
of the budget, carried out and answered with success, and reported as timed out.
The response register was last read before that, and was not zero. -/
theorem answered_in_vain :
    (machine ResponseCode.ok).result echo (mailboxes Settings.budgetMin) .rsmu 5 (.first 9) =
        .error .timeout ∧
      ((machine ResponseCode.ok).after echo (mailboxes Settings.budgetMin) .rsmu 5
        (.first 9)).chip.peek mailbox.registers.response = ResponseCode.ok ∧
      ∀ as, Traffic .standard (((mailboxes Settings.budgetMin).execute .rsmu 5
          (.first 9)).run.journal (World.platform echo) (machine ResponseCode.ok)) as →
        (∀ x ∈ as, x.fault? = none) ∧
        lastReading? mailbox.registers.response as = some (.ok ResponseCode.ok) ∧
        ∃ before, as = before ++ [.write mailbox.registers.command 5 (.ok ())] := by
  have hc : (machine ResponseCode.ok).chip.Carries 0 mailbox := by
    refine ⟨rfl, ?_, by decide⟩
    intro j other hj hne
    obtain ⟨k, rfl⟩ := Nat.exists_eq_succ_of_ne_zero hne
    cases hj
  obtain ⟨hresult, hstatus, htraffic⟩ :=
    @World.result_spent Unit echo (machine ResponseCode.ok) (mailboxes Settings.budgetMin) .rsmu 0
      mailbox 5 (.first 9) ⟨rfl, by decide⟩ rfl hc rfl (Chip.works_of_nil rfl rfl _)
      (show ResponseCode.ok ≠ 0 by decide) rfl
  refine ⟨hresult, hstatus, fun as has => ?_⟩
  have hfaults := fault?_poll_stored (b := mailbox.registers) 499 ResponseCode.ok
    (mailbox.registers.request 5 (.first 9))
  rw [has.eq_of_faultless htraffic hfaults]
  refine ⟨hfaults, ?_, ?_⟩
  · rw [lastReading?_stored]
    exact lastReading?_poll [] 499 ResponseCode.ok
  · rw [RegisterBlock.request, List.map_append, ← List.append_assoc]
    exact ⟨_, rfl⟩

end Spent
end Simulation
end ManagementUnit
