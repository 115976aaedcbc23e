/-
  ManagementUnit.Proofs.Simulation.Standing
  ────────────────────────────────
  What a transaction comes to on a simulated mailbox, and what it leaves behind.

  Where no register faults, both go by where the mailbox stands, which is its record
  and the contents of its response register, and by the firmware.  With a budget of
  `n` reads of the response register, and a mailbox that stalls for `k` of them,

      · the first poll takes k + 1 reads, if the register is not at zero and n > k,
        and otherwise all of them,
      · the second one has n - (k + 1) reads left, and takes as many as the mailbox
        stalls after a command, and one more.

  The words in the argument registers do not matter: a request stores all six before
  the firmware sees them, and its answer stores all six before they are read back.

  Main results:
    * `Trace.concluded`  — result, standing and firmware behind a transaction.
    * `World.concluded`  — the same for a run on a machine.
-/
import ManagementUnit.Proofs.Simulation.Mailbox

namespace ManagementUnit.Simulation

/-! ## §1. Standings. -/

/-- The mailbox after `n` more reads of its response register. -/
def Mailbox.waited (mb : Mailbox) (n : Nat) : Mailbox :=
  { mb with stall := if mb.neverReady then mb.stall else mb.stall - n }

theorem Mailbox.waited_waited (mb : Mailbox) (n k : Nat) :
    (mb.waited n).waited k = mb.waited (n + k) := by
  unfold waited
  cases mb.neverReady with
  | true => rfl
  | false => simp [Nat.sub_sub]

/-- Where a mailbox stands: its record, and what its response register holds. -/
structure Standing where
  mailbox : Mailbox
  response : UInt32

/-- Mailbox number `i` of a chip stands as told, and no register of it faults. -/
structure Chip.Shows (c : Chip) (i : Nat) (x : Standing) : Prop where
  carries : c.Carries i x.mailbox
  works : c.Works x.mailbox.registers
  response : c.peek x.mailbox.registers.response = x.response

namespace Standing

/-- The first poll of a transaction ends within its budget. -/
def Opens (x : Standing) (budget : Nat) : Prop :=
  x.mailbox.neverReady = false ∧ x.response ≠ 0 ∧ x.mailbox.stall < budget

instance (x : Standing) (budget : Nat) : Decidable (x.Opens budget) :=
  inferInstanceAs (Decidable (_ ∧ _ ∧ _))

/-- What the first poll leaves of the budget. -/
def left (x : Standing) (budget : Nat) : Nat := budget - (x.mailbox.stall + 1)

variable {σ : Type} (x : Standing) (firmware : Firmware σ) (budget : Nat) (opcode : UInt32)
  (sent : Arguments) (s : σ)

/-- What a transaction comes to. -/
def result : Except Failure Arguments :=
  let answer := x.mailbox.answer firmware opcode sent s
  if x.Opens budget ∧ answer.status ≠ 0 ∧ x.mailbox.latency < x.left budget then answer.result
  else .error .timeout

/-- Where it leaves the mailbox. -/
def after : Standing :=
  if x.Opens budget then
    ⟨{ x.mailbox with stall := x.mailbox.latency }.waited (x.left budget),
      (x.mailbox.answer firmware opcode sent s).status⟩
  else ⟨x.mailbox.waited budget, x.response⟩

/-- Where it leaves the firmware. -/
def firmwareAfter : σ :=
  if x.Opens budget then (firmware x.mailbox.registers.command opcode sent s).2 else s

@[simp]
theorem registers_after :
    (x.after firmware budget opcode sent s).mailbox.registers = x.mailbox.registers := by
  unfold after
  split <;> rfl

end Standing

/-! ## §2. Polls. -/

namespace Served

variable {σ : Type} {firmware : Firmware σ} {c : Chip} {s : σ} {u' : Chip × σ} {i : Nat}
  {mb : Mailbox}

/-- A mailbox that is never ready reads as zero. -/
theorem readNeverReady {v : UInt32} (hc : c.Carries i mb) (hnever : mb.neverReady = true)
    (h : Served firmware (c, s) (.read mb.registers.response (.ok v)) u') :
    u'.1.Carries i mb ∧ u'.1.peek = c.peek ∧ u'.2 = s ∧ v = 0 := by
  cases h with
  | read h =>
    rw [hc.read_response (Chip.not_faulty_of_read h), if_pos hnever] at h
    cases h
    exact ⟨hc.ofMailboxes rfl, rfl, rfl, rfl⟩

/-- Whatever is read, the mailbox waits for one read less. -/
theorem readWaited {v : UInt32} (hc : c.Carries i mb)
    (h : Served firmware (c, s) (.read mb.registers.response (.ok v)) u') :
    u'.1.Carries i (mb.waited 1) ∧ u'.1.peek = c.peek ∧ u'.2 = s := by
  cases hready : mb.neverReady with
  | true =>
    obtain ⟨hc', hpeek, hs, -⟩ := h.readNeverReady hc hready
    have hsame : mb.waited 1 = mb := by
      unfold Mailbox.waited
      rw [if_pos hready]
    rw [hsame]
    exact ⟨hc', hpeek, hs⟩
  | false =>
    have hless : mb.waited 1 = { mb with stall := mb.stall - 1 } := by
      unfold Mailbox.waited
      rw [if_neg (by simp [hready])]
    rw [hless]
    obtain ⟨hpeek, hs, ⟨hstall, -, hc'⟩ | ⟨n, hstall, -, hc'⟩⟩ := h.readResponse hc hready
    · have hsame : { mb with stall := mb.stall - 1 } = mb := by
        rw [hstall, Nat.zero_sub, ← hstall]
      rw [hsame]
      exact ⟨hc', hpeek, hs⟩
    · rw [hstall, Nat.add_sub_cancel]
      exact ⟨hc', hpeek, hs⟩

end Served

namespace Trace

variable {σ : Type} {firmware : Firmware σ} {c : Chip} {s : σ} {u' : Chip × σ} {i : Nat}
  {mb : Mailbox}

/-- However often it is read, nothing changes but for how long the mailbox stalls. -/
theorem zeroReads_waited {n : Nat} (hc : c.Carries i mb)
    (h : Trace firmware (c, s) (mb.registers.zeroReads n) u') :
    u'.1.Carries i (mb.waited n) ∧ u'.1.peek = c.peek ∧ u'.2 = s := by
  induction n generalizing c s mb with
  | zero =>
    cases h
    have hsame : mb.waited 0 = mb := by simp [Mailbox.waited]
    rw [hsame]
    exact ⟨hc, rfl, rfl⟩
  | succ n ih =>
    cases h with
    | @cons _ v _ _ _ hx h =>
      obtain ⟨c₁, s₁⟩ := v
      obtain ⟨hc₁, hpeek, rfl⟩ := hx.readWaited hc
      obtain ⟨hc', hpeek', hs⟩ := ih hc₁ h
      rw [Mailbox.waited_waited, Nat.add_comm] at hc'
      exact ⟨hc', hpeek'.trans hpeek, hs⟩

/-- A poll ends only at a mailbox that gets ready, with a response register that is not
at zero. -/
theorem opens_of_poll {n : Nat} {v : UInt32} (hc : c.Carries i mb) (hv : v ≠ 0)
    (h : Trace firmware (c, s) (mb.registers.poll n v) u') :
    mb.neverReady = false ∧ c.peek mb.registers.response ≠ 0 := by
  cases hready : mb.neverReady with
  | true =>
    obtain ⟨⟨c₁, s₁⟩, hzeros, hlast⟩ := h.split
    obtain ⟨hc₁, -, -⟩ := hzeros.zeroReads_waited hc
    obtain ⟨-, -, -, hzero⟩ := hlast.single.readNeverReady hc₁ hready
    exact absurd hzero hv
  | false => exact ⟨rfl, fun hzero => hv (h.poll_zero hc hready hzero)⟩

end Trace

/-! ## §3. Transactions. -/

theorem Chip.Works.ofTrace {σ : Type} {firmware : Firmware σ} {c : Chip} {s : σ} {u' : Chip × σ}
    {as : List Access} {b : RegisterBlock} (h : c.Works b)
    (htrace : Trace firmware (c, s) as u') : u'.1.Works b := by
  obtain ⟨hreads, hwrites⟩ := htrace.faults
  intro a ha
  rw [hreads, hwrites]
  exact h a ha

/-- A transaction comes to the result `r` and leaves chip and firmware as the standing
says. -/
structure Standing.Concluded {σ : Type} (x : Standing) (firmware : Firmware σ) (budget : Nat)
    (opcode : UInt32) (sent : Arguments) (s : σ) (i : Nat) (r : Except Failure Arguments)
    (u' : Chip × σ) : Prop where
  result : r = x.result firmware budget opcode sent s
  shows : u'.1.Shows i (x.after firmware budget opcode sent s)
  state : u'.2 = x.firmwareAfter firmware budget opcode sent s

namespace Trace

variable {σ : Type} {firmware : Firmware σ} {c : Chip} {s : σ} {u' : Chip × σ} {i : Nat}
  {x : Standing} {opcode : UInt32} {sent : Arguments} {budget : Nat} {as : List Access}
  {r : Except Failure Arguments}

/-- Reading the response register leaves a standing that waits for so many reads less. -/
theorem shows_waited {n : Nat} (hx : c.Shows i x)
    (h : Trace firmware (c, s) (x.mailbox.registers.zeroReads n) u') :
    u'.1.Shows i ⟨x.mailbox.waited n, x.response⟩ ∧ u'.2 = s := by
  obtain ⟨hc, hpeek, hs⟩ := h.zeroReads_waited hx.carries
  exact ⟨⟨hc, hx.works.ofTrace h, (congrFun hpeek _).trans hx.response⟩, hs⟩

/-- A register that holds something else than zero is read as zero no longer than the
mailbox stalls. -/
theorem le_stall {n : Nat} (hx : c.Shows i x) (hready : x.mailbox.neverReady = false)
    (hresponse : x.response ≠ 0)
    (h : Trace firmware (c, s) (x.mailbox.registers.zeroReads n) u') : n ≤ x.mailbox.stall :=
  (h.zeroReads hx.carries hready (hx.response ▸ hresponse)).1

/-- A poll of the whole budget is one that the mailbox does not open within. -/
theorem not_opens (hx : c.Shows i x)
    (h : Trace firmware (c, s) (x.mailbox.registers.zeroReads budget) u') : ¬ x.Opens budget := by
  rintro ⟨hready, hresponse, hstall⟩
  exact Nat.not_le_of_lt hstall (h.le_stall hx hready hresponse)

theorem concluded_shut (hx : c.Shows i x)
    (h : Trace firmware (c, s) (x.mailbox.registers.zeroReads budget) u') :
    x.Concluded firmware budget opcode sent s i (.error .timeout) u' := by
  have hshut := h.not_opens hx
  obtain ⟨hx', hs⟩ := h.shows_waited hx
  refine ⟨?_, ?_, ?_⟩
  · rw [Standing.result, if_neg fun hall => hshut hall.1]
  · rw [Standing.after, if_neg hshut]
    exact hx'
  · rw [Standing.firmwareAfter, if_neg hshut]
    exact hs

/-- Behind a poll and a whole request, the mailbox stands with its answer in place. -/
theorem opened {n : Nat} {v : UInt32} (hx : c.Shows i x) (hv : v ≠ 0)
    (h : Trace firmware (c, s) (x.mailbox.registers.poll n v ++
      (x.mailbox.registers.request opcode sent).map Access.stored ++ as) u') :
    x.mailbox.neverReady = false ∧ x.response ≠ 0 ∧ n = x.mailbox.stall ∧
      ∃ c', Trace firmware (c', (firmware x.mailbox.registers.command opcode sent s).2) as u' ∧
        c'.Shows i ⟨{ x.mailbox with stall := x.mailbox.latency },
          (x.mailbox.answer firmware opcode sent s).status⟩ ∧
        ∀ j : Fin wordCount, c'.peek (x.mailbox.registers.argument j.val) =
          (x.mailbox.answer firmware opcode sent s).words.get j := by
  have hfront := h
  rw [List.append_assoc] at hfront
  obtain ⟨_, hpoll, -⟩ := hfront.split
  obtain ⟨hready, hresponse⟩ := hpoll.opens_of_poll hx.carries hv
  obtain ⟨hn, c', hrest, hc', hstatus, hwords, hreads, hwrites⟩ :=
    h.started hx.carries hready hresponse hv
  refine ⟨hready, hx.response ▸ hresponse, hn, c', hrest, ⟨hc', ?_, hstatus⟩, hwords⟩
  intro a ha
  rw [hreads, hwrites]
  exact hx.works a ha

/-- If the mailbox opens, but does not answer within what is left, the transaction times
out. -/
theorem concluded_unanswered {n k : Nat} {v : UInt32} (hx : c.Shows i x) (hv : v ≠ 0)
    (hspent : n + 1 + k = budget)
    (h : Trace firmware (c, s) (x.mailbox.registers.poll n v ++
      (x.mailbox.registers.request opcode sent).map Access.stored ++
        x.mailbox.registers.zeroReads k) u') :
    x.Concluded firmware budget opcode sent s i (.error .timeout) u' := by
  obtain ⟨hready, hresponse, hn, c', hzeros, hy, -⟩ := h.opened hx hv
  have hopens : x.Opens budget := ⟨hready, hresponse, by omega⟩
  have hleft : k = x.left budget := by
    unfold Standing.left
    omega
  obtain ⟨hy', hs⟩ := shows_waited hy hzeros
  refine ⟨?_, ?_, ?_⟩
  · rw [Standing.result, if_neg]
    rintro ⟨-, hstatus, hlatency⟩
    exact absurd (le_stall hy hready hstatus hzeros) (by simpa [hleft] using hlatency)
  · rw [Standing.after, if_pos hopens, ← hleft]
    exact hy'
  · rw [Standing.firmwareAfter, if_pos hopens]
    exact hs

/-- A poll that ends takes as many reads as the mailbox stalls, and one more that tells
what the register holds. -/
theorem polled {n : Nat} {v : UInt32} (hx : c.Shows i x) (hv : v ≠ 0)
    (h : Trace firmware (c, s) (x.mailbox.registers.poll n v ++ as) u') :
    n = x.mailbox.stall ∧ v = x.response ∧ ∃ c', Trace firmware (c', s) as u' ∧
      c'.Shows i ⟨{ x.mailbox with stall := 0 }, x.response⟩ ∧ c'.peek = c.peek := by
  obtain ⟨⟨c', s'⟩, hpoll, hrest⟩ := h.split
  obtain ⟨hready, hresponse⟩ := hpoll.opens_of_poll hx.carries hv
  obtain ⟨hn, hread, hc', hpeek, rfl⟩ := hpoll.poll hx.carries hready hresponse hv
  refine ⟨hn, hread.trans hx.response, c', hrest, ⟨hc', hx.works.ofTrace hpoll, ?_⟩, hpeek⟩
  exact (congrFun hpeek _).trans hx.response

/-- If the mailbox opens and answers within what is left, the transaction has its
answer. -/
theorem concluded_answered {answer : Answer} (hready : x.mailbox.neverReady = false)
    (hresponse : x.response ≠ 0) (hanswer : x.mailbox.answer firmware opcode sent s = answer)
    (hstatus : answer.status ≠ 0) (hbudget : x.mailbox.stall + 1 + (x.mailbox.latency + 1) ≤ budget)
    (hshows : u'.1.Shows i ⟨{ x.mailbox with stall := 0 }, answer.status⟩)
    (hstate : u'.2 = (firmware x.mailbox.registers.command opcode sent s).2)
    (hr : r = answer.result) : x.Concluded firmware budget opcode sent s i r u' := by
  have hopens : x.Opens budget := ⟨hready, hresponse, by omega⟩
  have hlatency : x.mailbox.latency < x.left budget := by
    unfold Standing.left
    omega
  refine ⟨?_, ?_, ?_⟩
  · rw [hr, Standing.result, hanswer, if_pos ⟨hopens, hstatus, hlatency⟩]
  · have hidle : ({ x.mailbox with stall := x.mailbox.latency } : Mailbox).waited
        (x.left budget) = { x.mailbox with stall := 0 } := by
      simp [Mailbox.waited, hready, Nat.sub_eq_zero_of_le (Nat.le_of_lt hlatency)]
    rw [Standing.after, if_pos hopens, hidle, hanswer]
    exact hshows
  · rw [Standing.firmwareAfter, if_pos hopens]
    exact hstate

/-- Where no register of the mailbox faults, a transaction comes to what the standing of
the mailbox says, and leaves it there. -/
theorem concluded (hx : c.Shows i x)
    (hcourse : Course x.mailbox.registers opcode sent budget as r)
    (hreads : readCount x.mailbox.registers.response as ≤ budget)
    (h : Trace firmware (c, s) as u') : x.Concluded firmware budget opcode sent s i r u' := by
  cases h.faultless hx.works hcourse hreads with
  | shut => exact concluded_shut hx h
  | unanswered hv hspent => exact concluded_unanswered hx hv hspent h
  | @rejected n k v raw hv hraw hfail hbudget =>
    obtain ⟨hready, hresponse, rfl, c', hrest, hy, -⟩ := h.opened hx hv
    rw [← List.append_nil (x.mailbox.registers.poll k raw)] at hrest
    obtain ⟨hk, hstatus, c₁, hnil, hy', -⟩ := polled hy hraw hrest
    cases hnil
    subst hk hstatus
    refine concluded_answered hready hresponse rfl hraw hbudget hy' rfl ?_
    exact (if_neg hfail).symm
  | @answered n k v hv hbudget outcomes =>
    obtain ⟨hready, hresponse, rfl, c', hrest, hy, hwords⟩ := h.opened hx hv
    obtain ⟨hk, hok, c₁, hback, hy', hpeek⟩ := polled hy (by decide) hrest
    obtain ⟨hc, hpeek', hs, houtcomes⟩ := readArguments hy'.carries hy'.works hback
    subst hk
    have hshows : u'.1.Shows i ⟨{ x.mailbox with stall := 0 },
        (x.mailbox.answer firmware opcode sent s).status⟩ :=
      ⟨hc, hy'.works.ofTrace hback, (congrFun hpeek' _).trans hy'.response⟩
    have hok : (x.mailbox.answer firmware opcode sent s).status = ResponseCode.ok := hok.symm
    have hstatus : (x.mailbox.answer firmware opcode sent s).status ≠ 0 := by
      rw [hok]
      decide
    refine concluded_answered hready hresponse rfl hstatus hbudget hshows hs ?_
    -- the words that are read back are those of the answer
    rw [Answer.result, if_pos hok]
    refine congrArg Except.ok (Arguments.ext_get fun j => ?_)
    have hj : outcomes j = .ok (c₁.peek (x.mailbox.registers.argument j.val)) :=
      houtcomes j (Arguments.mem_positions j)
    rw [Arguments.received, Arguments.get_ofFn, hj, hpeek, hwords j]
    rfl

end Trace

/-! ## §4. Runs on a machine. -/

namespace World

variable {η : Type}

/-- The result of a transaction on a machine. -/
def result (firmware : Firmware (η × Memory)) (world : World η) (m : Mailboxes) (channel : Channel)
    (opcode : UInt32) (sent : Arguments) : Except Failure Arguments :=
  ((m.execute channel opcode sent).run.run (platform firmware) world).1

/-- The machine after a transaction. -/
def after (firmware : Firmware (η × Memory)) (world : World η) (m : Mailboxes) (channel : Channel)
    (opcode : UInt32) (sent : Arguments) : World η :=
  ((m.execute channel opcode sent).run.run (platform firmware) world).2

variable {world : World η} {m : Mailboxes} {channel : Channel} {b : RegisterBlock}

/-- A transaction on a machine keeps to a course within its budget, and its accesses are
a trace of the chip. -/
theorem course_trace (h : world.Through m.window) (hb : m.registers? channel = some b)
    (firmware : Firmware (η × Memory)) (opcode : UInt32) (sent : Arguments) :
    (world.after firmware m channel opcode sent).Through m.window ∧
      ∃ as, Course b opcode sent m.budget as (world.result firmware m channel opcode sent) ∧
        readCount b.response as ≤ m.budget ∧
        Trace firmware world.core as (world.after firmware m channel opcode sent).core := by
  let p := (m.execute channel opcode sent).run
  have hreach := Program.reaches_journal (platform firmware) p world
  obtain ⟨as, has, hcourse, hreads⟩ := conducts_execute hb opcode sent _ _ hreach
  obtain ⟨htrace, hthrough⟩ := has.trace h (.ofJournal p world)
  exact ⟨hthrough, as, hcourse, hreads, htrace⟩

/-- Where no register of the mailbox faults, a transaction on a machine comes to what the
standing of the mailbox says, and leaves it there. -/
theorem concluded {i : Nat} {x : Standing} (h : world.Through m.window)
    (hb : m.registers? channel = some x.mailbox.registers) (hx : world.chip.Shows i x)
    (firmware : Firmware (η × Memory)) (opcode : UInt32) (sent : Arguments) :
    x.Concluded firmware m.budget opcode sent (world.firmware, world.memory) i
      (world.result firmware m channel opcode sent)
      (world.after firmware m channel opcode sent).core := by
  obtain ⟨-, as, hcourse, hreads, htrace⟩ := course_trace h hb firmware opcode sent
  exact Trace.concluded hx hcourse hreads htrace

end World
end ManagementUnit.Simulation
