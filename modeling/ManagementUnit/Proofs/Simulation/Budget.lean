/-
  ManagementUnit.Proofs.Simulation.Budget
  ────────────────────────────────
  How often a transaction reads the response register, and what the firmware sees of
  it.

  The two polls of a transaction share one budget.  On a mailbox that stalls for `s`
  reads, and for `l` more after a command, a budget of `n` reads falls into one of
  three ranges:

      n ≤ s               the first poll takes all of it, and no command goes out
      s < n < s + l + 2   the command goes out, and the second poll takes the rest
      s + l + 2 ≤ n       the answer comes, after s + l + 2 reads

  A chip keeps a tally of its reads and a record of its commands.  What accesses in a
  row add to the tally is their number (`Trace.reads_get`); what they add to the
  record is nothing, or the one command among them (`Trace.unissued`, `Trace.issued`).

  Main results:
    * `Trace.metered`          — reads and commands of a transaction, wherever the
      mailbox stands.
    * `World.budget_shared`    — the three ranges, on a machine without faults.
-/
import ManagementUnit.Proofs.Simulation.Independence

namespace ManagementUnit.Simulation

open RegisterBlock

/-! ## §1. The tally of reads. -/

theorem get_count (t : Tally) (a b : UInt32) :
    (t.count a).get b = t.get b + if a = b then 1 else 0 := by
  rw [Tally.count, Sparse.get_set]
  by_cases h : a = b
  · rw [if_pos h, if_pos h, h]
  · rw [if_neg h, if_neg h, Nat.add_zero]

section Tally

variable {σ : Type} {firmware : Firmware σ} {u u' : Chip × σ}

theorem Served.reads_get {x : Access} (h : Served firmware u x u') (b : UInt32) :
    u'.1.reads.get b = u.1.reads.get b + readCount b [x] := by
  cases h with
  | @read c c' s a v h | @readFault c c' s a h =>
    -- a read is counted, be it one that faults
    rw [Chip.eq_of_read h]
    refine (get_count ..).trans (congrArg (c.reads.get b + ·) ?_)
    simp [readCount, Access.isReadOf, List.countP_cons]
  | write h | writeFault h =>
    rw [Chip.eq_of_write h]
    rfl

/-- What accesses in a row add to the tally is their number. -/
theorem Trace.reads_get {as : List Access} (h : Trace firmware u as u') (b : UInt32) :
    u'.1.reads.get b = u.1.reads.get b + readCount b as := by
  induction h with
  | nil => rfl
  | @cons _ _ _ x as hx _ ih =>
    rw [ih, hx.reads_get b, Nat.add_assoc, ← readCount_append]
    rfl

end Tally

/-! ## §2. The record of commands. -/

section Record

variable {σ : Type} {firmware : Firmware σ} {c : Chip} {s : σ} {u' : Chip × σ} {i : Nat}
  {mb : Mailbox} {opcode : UInt32} {sent : Arguments} {as : List Access}

/-- An access that starts nothing adds nothing to the record. -/
theorem Served.unissued {x : Access} (hc : c.Carries i mb) (hx : x.address ∈ mb.registers.registers)
    (hquiet : ∀ v, x ≠ .write mb.registers.command v (.ok ())) (h : Served firmware (c, s) x u') :
    u'.1.commands = c.commands := by
  cases h with
  | read h | readFault h =>
    rw [Chip.eq_of_read h]
    rfl
  | @write _ _ _ _ a v h =>
    have ha : a ∈ mb.registers.registers := hx
    have hne : a ≠ mb.registers.command := by
      rintro rfl
      exact hquiet v rfl
    rw [hc.write_register ha hne (Chip.not_faulty_of_write h)] at h
    cases h
    rfl
  | writeFault h =>
    obtain ⟨-, rfl, -⟩ := Chip.write_eq_none_iff.1 h
    rfl

/-- Neither do accesses in a row. -/
theorem Trace.unissued (hc : c.Carries i mb) (has : ∀ x ∈ as, x.address ∈ mb.registers.registers)
    (hquiet : ∀ v, .write mb.registers.command v (.ok ()) ∉ as)
    (h : Trace firmware (c, s) as u') : u'.1.commands = c.commands := by
  induction as generalizing c s mb with
  | nil =>
    cases h
    rfl
  | cons x as ih =>
    cases h with
    | @cons _ v _ _ _ hx h =>
      obtain ⟨c₁, s₁⟩ := v
      obtain ⟨hfirst, hrest⟩ := List.forall_mem_cons.1 has
      have hsame := hx.unissued hc hfirst fun v heq => hquiet v (heq ▸ List.mem_cons_self)
      obtain ⟨mb₁, hc₁, hregisters⟩ := (hx.touched hc hfirst).carries hc
      rw [← hregisters] at hrest hquiet
      exact (ih hc₁ hrest (fun v hmem => hquiet v (List.mem_cons_of_mem _ hmem)) h).trans hsame

/-- An opcode that is written to the command register adds its command, with the words
that are in the argument registers. -/
theorem Served.issued (hc : c.Carries i mb)
    (h : Served firmware (c, s) (.write mb.registers.command opcode (.ok ())) u') :
    u'.1.commands = c.commands ++
      [⟨mb.registers.command, opcode, c.argumentWords mb.registers⟩] := by
  rw [h.ranCommand hc, Chip.runCommand_eq, hc.argumentWords_noted]
  rfl

/-- Behind a poll and the words of a request, the argument registers hold these words,
and the opcode is still to be written. -/
theorem Trace.opcodeDue {n : Nat} {v : UInt32} (hc : c.Carries i mb)
    (h : Trace firmware (c, s)
      (mb.registers.poll n v ++ (mb.registers.request opcode sent).map Access.stored ++ as) u') :
    ∃ c' s' mb', Trace firmware (c, s)
        (mb.registers.poll n v ++ (mb.registers.front sent).map Access.stored) (c', s') ∧
      Trace firmware (c', s') (.write mb.registers.command opcode (.ok ()) :: as) u' ∧
      c'.Carries i mb' ∧ mb'.registers = mb.registers ∧ c'.argumentWords mb.registers = sent := by
  rw [stored_request] at h
  obtain ⟨⟨c', s'⟩, hbefore, hrest⟩ := h.split
  obtain ⟨⟨c₁, s₁⟩, hpoll, hfront⟩ := hbefore.split
  obtain ⟨mb₁, hc₁, hregisters⟩ := (hpoll.touched hc address_mem_poll).carries hc
  rw [← hregisters] at hfront
  obtain ⟨hc', hwords, -⟩ := hfront.front hc₁
  exact ⟨c', s', mb₁, hbefore, hrest, hc', hregisters, hregisters ▸ hwords⟩

/-- A poll and a whole request add the one command, with the words of the request. -/
theorem Trace.issued {n : Nat} {v : UInt32} (hc : c.Carries i mb)
    (has : ∀ x ∈ as, x.address ∈ mb.registers.registers)
    (hquiet : ∀ v, .write mb.registers.command v (.ok ()) ∉ as)
    (h : Trace firmware (c, s)
      (mb.registers.poll n v ++ (mb.registers.request opcode sent).map Access.stored ++ as) u') :
    u'.1.commands = c.commands ++ [⟨mb.registers.command, opcode, sent⟩] := by
  obtain ⟨c', s', mb', hbefore, hrest, hc', hregisters, hwords⟩ := h.opcodeDue hc
  have hsplit := mb.registers.request_eq opcode sent
  have hplain := RegisterBlock.plain_of_split hc.nodup hsplit
  -- nothing goes to the command register before the opcode does
  have hfirst := hbefore.unissued hc
    (List.forall_mem_append.2 ⟨address_mem_poll, address_mem_stored fun p hp => (hplain p hp).1⟩)
    (command_not_mem_of_stored hc.nodup hsplit n v)
  rw [← hregisters] at hrest has hquiet hwords ⊢
  cases hrest with
  | @cons _ mid _ _ _ hx h =>
    obtain ⟨c₃, s₃⟩ := mid
    obtain ⟨mb₃, hc₃, hregisters₃⟩ := (hx.touched hc' List.mem_cons_self).carries hc'
    rw [← hregisters₃] at has hquiet
    rw [h.unissued hc₃ has hquiet, hx.issued hc', hwords]
    exact congrArg (· ++ _) hfirst

end Record

/-! ## §3. Transactions. -/

namespace Standing

variable {σ : Type} (x : Standing) (firmware : Firmware σ) (budget : Nat) (opcode : UInt32)
  (sent : Arguments) (s : σ)

/-- How often a transaction reads the response register. -/
def reads : Nat :=
  if x.Opens budget ∧ (x.mailbox.answer firmware opcode sent s).status ≠ 0 then
    min budget (x.mailbox.stall + x.mailbox.latency + 2)
  else budget

/-- What the firmware sees of it. -/
def issues : List Command :=
  if x.Opens budget then [⟨x.mailbox.registers.command, opcode, sent⟩] else []

end Standing

section Metered

variable {σ : Type} {firmware : Firmware σ} {c : Chip} {s : σ} {u' : Chip × σ} {i : Nat}
  {x : Standing} {opcode : UInt32} {sent : Arguments} {budget : Nat} {as : List Access}
  {r : Except Failure Arguments}

/-- Behind a poll and a whole request the mailbox opened, and the command went out. -/
theorem Trace.issues {n : Nat} {v : UInt32} (hx : c.Shows i x) (hv : v ≠ 0) (hn : n < budget)
    (has : ∀ y ∈ as, y.address ∈ x.mailbox.registers.registers)
    (hquiet : ∀ v, .write x.mailbox.registers.command v (.ok ()) ∉ as)
    (h : Trace firmware (c, s) (x.mailbox.registers.poll n v ++
      (x.mailbox.registers.request opcode sent).map Access.stored ++ as) u') :
    u'.1.commands = c.commands ++ x.issues budget opcode sent := by
  obtain ⟨hready, hresponse, hstall, -⟩ := h.opened hx hv
  rw [Standing.issues, if_pos ⟨hready, hresponse, hstall ▸ hn⟩]
  exact h.issued hx.carries has hquiet

/-- If the second poll ends as well, it took as many reads as the mailbox stalls after a
command, and one more that tells the status. -/
theorem Trace.reads_answered {n k : Nat} {v raw : UInt32} (hx : c.Shows i x) (hv : v ≠ 0)
    (hraw : raw ≠ 0) (hbudget : n + 1 + (k + 1) ≤ budget)
    (h : Trace firmware (c, s) (x.mailbox.registers.poll n v ++
      (x.mailbox.registers.request opcode sent).map Access.stored ++
        (x.mailbox.registers.poll k raw ++ as)) u') :
    n + 1 + (k + 1) = x.reads firmware budget opcode sent s := by
  obtain ⟨hready, hresponse, hn, c', hrest, hy, -⟩ := h.opened hx hv
  obtain ⟨hk, hstatus, -⟩ := hrest.polled hy hraw
  have hopens : x.Opens budget := ⟨hready, hresponse, by omega⟩
  have hk : k = x.mailbox.latency := hk
  have hstatus : raw = (x.mailbox.answer firmware opcode sent s).status := hstatus
  rw [Standing.reads, if_pos ⟨hopens, hstatus ▸ hraw⟩]
  omega

/-- If it does not, the two polls took all of the budget. -/
theorem Trace.reads_unanswered {n k : Nat} {v : UInt32} (hx : c.Shows i x) (hv : v ≠ 0)
    (hspent : n + 1 + k = budget)
    (h : Trace firmware (c, s) (x.mailbox.registers.poll n v ++
      (x.mailbox.registers.request opcode sent).map Access.stored ++
        x.mailbox.registers.zeroReads k) u') :
    budget = x.reads firmware budget opcode sent s := by
  obtain ⟨hready, -, hn, c', hzeros, hy, -⟩ := h.opened hx hv
  unfold Standing.reads
  split
  · next hall =>
    have hk : k ≤ x.mailbox.latency := hzeros.le_stall hy hready hall.2
    omega
  · rfl

/-- Where no register of the mailbox faults, a transaction reads the response register
as often, and issues the commands, as the standing of the mailbox says. -/
theorem Trace.metered (hx : c.Shows i x)
    (hcourse : Course x.mailbox.registers opcode sent budget as r)
    (hreads : readCount x.mailbox.registers.response as ≤ budget)
    (h : Trace firmware (c, s) as u') :
    readCount x.mailbox.registers.response as = x.reads firmware budget opcode sent s ∧
      u'.1.commands = c.commands ++ x.issues budget opcode sent := by
  cases h.faultless hx.works hcourse hreads with
  | shut =>
    have hshut := h.not_opens hx
    rw [Standing.reads, if_neg fun hall => hshut hall.1, Standing.issues, if_neg hshut,
      List.append_nil]
    exact ⟨readCount_zeroReads budget,
      h.unissued hx.carries address_mem_zeroReads fun _ => write_not_mem_zeroReads budget⟩
  | @unanswered n k v hv hspent =>
    simp only [readCount_append, readCount_poll, readCount_stored, readCount_zeroReads]
    refine ⟨hspent.trans (h.reads_unanswered hx hv hspent), ?_⟩
    exact h.issues hx hv (by omega) address_mem_zeroReads fun _ => write_not_mem_zeroReads k
  | @rejected n k v raw hv hraw hfail hbudget =>
    simp only [readCount_append, readCount_poll, readCount_stored]
    have hissues : u'.1.commands = c.commands ++ x.issues budget opcode sent :=
      h.issues hx hv (by omega) address_mem_poll fun _ => write_not_mem_poll k raw
    rw [← List.append_nil (x.mailbox.registers.poll k raw)] at h
    exact ⟨h.reads_answered hx hv hraw hbudget, hissues⟩
  | @answered n k v hv hbudget outcomes =>
    have hback := readCount_readBack hx.carries.nodup outcomes
    simp only [readCount_append, readCount_poll, readCount_stored, hback]
    refine ⟨h.reads_answered hx hv (by decide) hbudget, h.issues hx hv (by omega) ?_ ?_⟩
    · exact List.forall_mem_append.2 ⟨address_mem_poll, address_mem_readBack⟩
    · intro w hmem
      rcases List.mem_append.1 hmem with hmem | hmem
      · exact write_not_mem_poll k _ hmem
      · exact write_not_mem_readBack outcomes hmem

end Metered

/-! ## §4. A mailbox that gets ready and is answered for. -/

namespace Standing

variable {σ : Type} {x : Standing} {firmware : Firmware σ} {budget : Nat} {opcode : UInt32}
  {sent : Arguments} {s : σ}

/-- If the mailbox gets ready at all, it opens to a budget beyond its stall. -/
theorem opens_iff (hready : x.mailbox.neverReady = false) (hresponse : x.response ≠ 0) :
    x.Opens budget ↔ x.mailbox.stall + 1 ≤ budget :=
  ⟨fun h => h.2.2, fun h => ⟨hready, hresponse, h⟩⟩

theorem reads_eq (hready : x.mailbox.neverReady = false) (hresponse : x.response ≠ 0)
    (hstatus : (x.mailbox.answer firmware opcode sent s).status ≠ 0) :
    x.reads firmware budget opcode sent s =
      min budget (x.mailbox.stall + x.mailbox.latency + 2) := by
  unfold reads
  split
  · rfl
  · next hnot =>
    have hshut : ¬ x.mailbox.stall + 1 ≤ budget :=
      fun h => hnot ⟨(opens_iff hready hresponse).2 h, hstatus⟩
    omega

theorem result_eq (hready : x.mailbox.neverReady = false) (hresponse : x.response ≠ 0)
    (hstatus : (x.mailbox.answer firmware opcode sent s).status ≠ 0) :
    x.result firmware budget opcode sent s =
      if x.mailbox.stall + x.mailbox.latency + 2 ≤ budget then
        (x.mailbox.answer firmware opcode sent s).result
      else .error .timeout := by
  have hrange : x.Opens budget ∧ (x.mailbox.answer firmware opcode sent s).status ≠ 0 ∧
      x.mailbox.latency < x.left budget ↔
        x.mailbox.stall + x.mailbox.latency + 2 ≤ budget := by
    rw [opens_iff hready hresponse, and_iff_right hstatus, left]
    omega
  simp only [result, hrange]

/-- What the second poll could not wait for is left over. -/
theorem mailbox_after (hready : x.mailbox.neverReady = false) (hopens : x.Opens budget) :
    (x.after firmware budget opcode sent s).mailbox =
      { x.mailbox with stall := x.mailbox.latency - (budget - x.mailbox.stall - 1) } := by
  rw [after, if_pos hopens]
  simp [Mailbox.waited, hready, left, Nat.sub_sub]

end Standing

/-! ## §5. Runs on a machine. -/

namespace World

variable {η : Type} {firmware : Firmware (η × Memory)} {world : World η} {m : Mailboxes}
  {channel : Channel} {b : RegisterBlock} {i : Nat} {mb : Mailbox} {opcode : UInt32}
  {sent : Arguments} {answer : Answer}

/-- Both polls of a transaction draw on one budget.  On a machine without faults that
has the mailboxes of its generation, with a mailbox that gets ready and firmware that
answers, a transaction reads the response register just as often as it takes, or as
the budget allows; the firmware sees the command once, with the words of the request,
if the budget goes beyond the first stall; and the answer comes if it goes beyond both.
What the second poll could not wait for is still left over. -/
theorem budget_shared (hthrough : world.Through m.window) (hb : m.registers? channel = some b)
    (hattached : (world.chip.mailboxes.map Mailbox.registers).Perm m.codename.blocks)
    (hreads : world.chip.faultyReads = []) (hwrites : world.chip.faultyWrites = [])
    (hmb : world.chip.mailboxes[i]? = some mb) (hregisters : mb.registers = b)
    (hready : mb.neverReady = false) (hforced : mb.forced? = none)
    (hresponse : world.chip.peek b.response ≠ 0)
    (hanswer : (firmware b.command opcode sent world.state).1 = some answer)
    (hstatus : answer.status ≠ 0) :
    let world' := world.after firmware m channel opcode sent
    world'.chip.reads.get b.response =
        world.chip.reads.get b.response + min m.budget (mb.stall + mb.latency + 2) ∧
      world'.chip.commands = world.chip.commands ++
        (if mb.stall + 1 ≤ m.budget then [⟨b.command, opcode, sent⟩] else []) ∧
      world'.state = (if mb.stall + 1 ≤ m.budget then (firmware b.command opcode sent world.state).2
        else world.state) ∧
      world.result firmware m channel opcode sent =
        (if mb.stall + mb.latency + 2 ≤ m.budget then answer.result else .error .timeout) ∧
      (mb.stall + 1 ≤ m.budget → m.budget < mb.stall + mb.latency + 2 →
        world'.chip.mailboxes[i]? =
          some { mb with stall := mb.latency - (m.budget - mb.stall - 1) }) := by
  subst hregisters
  intro world'
  let x : Standing := ⟨mb, world.chip.peek mb.registers.response⟩
  have hx : world.chip.Shows i x :=
    ⟨Chip.carries_of_perm hb hattached hmb rfl, Chip.works_of_nil hreads hwrites _, rfl⟩
  obtain ⟨-, as, hcourse, hcount, htrace⟩ := course_trace hthrough hb firmware opcode sent
  obtain ⟨hread, hcommands⟩ := htrace.metered hx hcourse hcount
  obtain ⟨hresult, hshows, hstate⟩ := htrace.concluded hx hcourse hcount
  have hmailbox : x.mailbox.answer firmware opcode sent world.state = answer := by
    simp [x, Mailbox.answer, hforced, hanswer]
  have hanswered : (x.mailbox.answer firmware opcode sent world.state).status ≠ 0 :=
    hmailbox ▸ hstatus
  have hopens : x.Opens m.budget ↔ mb.stall + 1 ≤ m.budget :=
    Standing.opens_iff hready hresponse
  refine ⟨?_, ?_, ?_, ?_, ?_⟩
  · refine (htrace.reads_get mb.registers.response).trans ?_
    exact congrArg (_ + ·) (hread.trans (Standing.reads_eq hready hresponse hanswered))
  · simp only [Standing.issues, hopens] at hcommands
    exact hcommands
  · simp only [Standing.firmwareAfter, hopens] at hstate
    exact hstate
  · exact hmailbox ▸ hresult.trans (Standing.result_eq hready hresponse hanswered)
  · intro hsent _
    have hhere := hshows.carries.here
    rw [Standing.mailbox_after hready (hopens.2 hsent)] at hhere
    exact hhere

end World

namespace Halfway

open Unread (block firmware)

/-- A mailbox that stalls for six reads, and for eight after each command. -/
def mailbox : Mailbox where
  registers := block
  stall := 6
  latency := 8

/-- The driver's side of a machine, with a budget that ends within the second poll. -/
def mailboxes : Mailboxes := ⟨.matisse, 13, .standard⟩

/-- A machine with that mailbox and the other one of its generation. -/
def world : World Unit where
  chip :=
    { ({} : Chip).attachAll .matisse with
      mailboxes := [mailbox, { registers := Revision.v11.registers }] }
  firmware := ()

/-- Seven reads find the mailbox ready, six more do not bring the answer, and it would
have taken two more to begin with. -/
theorem budget_shared_halfway :
    let world' := world.after firmware mailboxes .rsmu 0x06 .zero
    world'.chip.reads.get block.response = 13 ∧
      world'.chip.commands = [⟨block.command, 0x06, .zero⟩] ∧
      world.result firmware mailboxes .rsmu 0x06 .zero = .error .timeout ∧
      world'.chip.mailboxes[0]? = some { mailbox with stall := 2 } := by
  have hthrough : world.Through mailboxes.window := ⟨rfl, by decide⟩
  have hattached : (world.chip.mailboxes.map Mailbox.registers).Perm mailboxes.codename.blocks :=
    .of_eq rfl
  have hresponse : world.chip.peek block.response ≠ 0 := by decide
  obtain ⟨hreads, hcommands, -, hresult, hleft⟩ :=
    @World.budget_shared Unit firmware world mailboxes .rsmu block 0 mailbox 0x06 .zero
      ⟨ResponseCode.ok, .pair 0xDF100000 0⟩ hthrough rfl hattached rfl rfl rfl rfl rfl rfl
      hresponse rfl (by decide)
  exact ⟨hreads, hcommands, hresult, hleft (by decide) (by decide)⟩

end Halfway
end ManagementUnit.Simulation
