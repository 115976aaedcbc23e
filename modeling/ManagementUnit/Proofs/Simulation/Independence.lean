/-
  ManagementUnit.Proofs.Simulation.Independence
  ────────────────────────────────
  Two mailboxes on one chip.

  The mailboxes of a generation may share argument registers, but each has a command
  and a response register of its own.  So a transaction on one of them leaves the
  standing of the other one alone, and if the firmware keeps what it knows of the two
  apart, it leaves that alone as well.  What a mailbox answers to a row of messages
  therefore does not depend on what is put to the other one in between.

  Two runs are compared, one with all messages and one with those to a single mailbox:

      · a message to this mailbox is put in both, comes to the same in both, and
        leaves mailbox and firmware alike in both;
      · a message to the other one is put in the first run alone, and changes nothing
        that the second run depends on.

  Main results:
    * `Trace.touched`                  — what a transaction leaves alone on a chip.
    * `World.Stands.transacted`        — a transaction on a machine with both mailboxes.
    * `World.correspondence_separate`  — what comes of the messages to one mailbox.
-/
import ManagementUnit.Proofs.Mailbox.Conversation
import ManagementUnit.Proofs.Simulation.Standing

namespace ManagementUnit

/-! ## §1. Whose registers are accessed. -/

namespace RegisterBlock

variable {b : RegisterBlock}

theorem response_mem_registers : b.response ∈ b.registers :=
  List.mem_cons_of_mem _ List.mem_cons_self

theorem address_mem_zeroReads {n : Nat} : ∀ x ∈ b.zeroReads n, x.address ∈ b.registers := by
  intro x hx
  rw [(List.mem_replicate.1 hx).2]
  exact response_mem_registers

theorem address_mem_poll {n : Nat} {v : UInt32} : ∀ x ∈ b.poll n v, x.address ∈ b.registers :=
  List.forall_mem_append.2
    ⟨address_mem_zeroReads, List.forall_mem_singleton.2 response_mem_registers⟩

theorem address_mem_stored {ws : List (UInt32 × UInt32)} (h : ∀ p ∈ ws, p.1 ∈ b.registers) :
    ∀ x ∈ ws.map Access.stored, x.address ∈ b.registers :=
  List.forall_mem_map.2 h

theorem address_mem_request {opcode : UInt32} {sent : Arguments} :
    ∀ x ∈ (b.request opcode sent).map Access.stored, x.address ∈ b.registers :=
  address_mem_stored fun _ => mem_registers_of_request

theorem address_mem_readBack {outcomes : Fin wordCount → Except NetworkFault UInt32} :
    ∀ x ∈ b.readBack outcomes, x.address ∈ b.registers :=
  List.forall_mem_map.2 fun i _ =>
    List.mem_cons_of_mem _ (List.mem_cons_of_mem _ (b.argument_mem i))

end RegisterBlock

open RegisterBlock

theorem Due.done_mem {b : RegisterBlock} {opcode : UInt32} {sent : Arguments}
    {done : List Access} {op : Operation} (h : Due b opcode sent done op) :
    ∀ x ∈ done, x.address ∈ b.registers := by
  cases h with
  | gate => exact address_mem_zeroReads
  | request hv hsplit =>
    refine List.forall_mem_append.2 ⟨address_mem_poll, address_mem_stored fun p hp => ?_⟩
    exact mem_registers_of_request (hsplit ▸ List.mem_append_left _ hp)
  | completion =>
    exact List.forall_mem_append.2
      ⟨List.forall_mem_append.2 ⟨address_mem_poll, address_mem_request⟩, address_mem_zeroReads⟩

/-- A transaction accesses the registers of its mailbox and no others. -/
theorem Course.address_mem {b : RegisterBlock} {opcode : UInt32} {sent : Arguments} {budget : Nat}
    {as : List Access} {r : Except Failure Arguments} (h : Course b opcode sent budget as r) :
    ∀ x ∈ as, x.address ∈ b.registers := by
  -- what all accesses begin with once the request went out
  have hasked : ∀ {n v k raw}, ∀ x ∈ b.poll n v ++ (b.request opcode sent).map Access.stored ++
      b.poll k raw, x.address ∈ b.registers :=
    List.forall_mem_append.2
      ⟨List.forall_mem_append.2 ⟨address_mem_poll, address_mem_request⟩, address_mem_poll⟩
  cases h with
  | @faulted done op f hdue =>
    refine List.forall_mem_append.2 ⟨hdue.done_mem, List.forall_mem_singleton.2 ?_⟩
    have hop := hdue.address_mem
    cases op <;> exact hop
  | exhausted hdue => exact hdue.done_mem
  | rejected => exact hasked
  | answered => exact List.forall_mem_append.2 ⟨hasked, address_mem_readBack⟩

namespace Simulation

/-! ## §2. What a transaction leaves alone. -/

/-- From `c` to `c'` nothing changed but the record of mailbox number `i`, which has the
registers `b`, and the contents of these registers. -/
def Chip.Touched (b : RegisterBlock) (i : Nat) (c c' : Chip) : Prop :=
  ∃ mb, c'.mailboxes = c.mailboxes.set i mb ∧ mb.registers = b ∧
    ∀ a ∉ b.registers, c'.peek a = c.peek a

namespace Chip.Touched

variable {b : RegisterBlock} {i j : Nat} {c c' c'' : Chip} {mb : Mailbox}

theorem refl (hc : c.Carries i mb) : Touched mb.registers i c c := by
  obtain ⟨hi, hget⟩ := List.getElem?_eq_some_iff.1 hc.here
  refine ⟨mb, ?_, rfl, fun _ _ => rfl⟩
  rw [← hget, List.set_getElem_self]

theorem trans (h : Touched b i c c') (h' : Touched b i c' c'') : Touched b i c c'' := by
  obtain ⟨mb, hmailboxes, -, hpeek⟩ := h
  obtain ⟨mb', hmailboxes', hregisters, hpeek'⟩ := h'
  refine ⟨mb', ?_, hregisters, fun a ha => (hpeek' a ha).trans (hpeek a ha)⟩
  rw [hmailboxes', hmailboxes, List.set_set]

/-- The mailbox is still there. -/
theorem carries (h : Touched mb.registers i c c') (hc : c.Carries i mb) :
    ∃ mb', c'.Carries i mb' ∧ mb'.registers = mb.registers := by
  obtain ⟨mb', hmailboxes, hregisters, -⟩ := h
  exact ⟨mb', hc.ofSet hmailboxes hregisters, hregisters⟩

/-- Another mailbox stands as it did, if its response register is another one as well. -/
theorem shows (h : Touched mb.registers i c c') (hc : c.Carries i mb) {y : Standing}
    (hy : c.Shows j y) (hji : j ≠ i)
    (hresponse : y.mailbox.registers.response ∉ mb.registers.registers)
    (hworks : c'.Works y.mailbox.registers) : c'.Shows j y := by
  obtain ⟨mb', hmailboxes, hregisters, hpeek⟩ := h
  refine ⟨⟨?_, ?_, hy.carries.nodup⟩, hworks, (hpeek _ hresponse).trans hy.response⟩
  · rw [hmailboxes, List.getElem?_set_ne hji.symm]
    exact hy.carries.here
  · intro k other hk hkj
    by_cases hki : k = i
    · -- the mailbox that changed has the registers that it had
      have hi : i < c.mailboxes.length := (List.getElem?_eq_some_iff.1 hc.here).1
      rw [hki, hmailboxes, List.getElem?_set_self hi] at hk
      cases hk
      rw [hregisters]
      exact hy.carries.apart i mb hc.here hji.symm
    · rw [hmailboxes, List.getElem?_set_ne (Ne.symm hki)] at hk
      exact hy.carries.apart k other hk hkj

end Chip.Touched

namespace Chip

variable {σ : Type} {c : Chip} {i : Nat} {mb : Mailbox}

/-- Counting an access touches nothing. -/
theorem Touched.ofSame {c' : Chip} (hc : c.Carries i mb) (hmailboxes : c'.mailboxes = c.mailboxes)
    (hpeek : c'.peek = c.peek) : Touched mb.registers i c c' := by
  obtain ⟨mb', hset, hregisters, -⟩ := refl hc
  exact ⟨mb', hmailboxes.trans hset, hregisters, fun a _ => congrFun hpeek a⟩

theorem read_touched {a : UInt32} (hc : c.Carries i mb) (ha : a ∈ mb.registers.registers) :
    Touched mb.registers i c (c.read a).2 := by
  have hsame : Touched mb.registers i c (c.countRead a) := .ofSame hc rfl rfl
  by_cases hfaulty : a ∈ c.faultyReads
  · rw [read_faulty hfaulty]
    exact hsame
  · by_cases hresponse : a = mb.registers.response
    · subst hresponse
      rw [hc.read_response hfaulty]
      split
      · exact hsame
      · split
        · exact hsame
        · exact ⟨_, rfl, rfl, fun _ _ => rfl⟩
    · rw [hc.read_register ha hresponse hfaulty]
      exact hsame

theorem runCommand_touched (firmware : Firmware σ) (hc : c.Carries i mb) (s : σ)
    (opcode : UInt32) :
    Touched mb.registers i c (c.runCommand firmware s i mb opcode).1 := by
  unfold runCommand
  simp only
  split
  · exact .ofSame hc rfl rfl
  · refine ⟨{ mb with stall := mb.latency }, ?_, rfl, fun a ha => ?_⟩
    · simp only [poke, mailboxes_storeWords]
    · have hne : mb.registers.response ≠ a := fun heq => ha (heq ▸ response_mem_registers)
      rw [peek_poke, if_neg hne, peek_storeWords]
      refine storeAll_of_not_mem (fun hmem => ha ?_) _
      rw [List.map_map] at hmem
      obtain ⟨j, -, rfl⟩ := List.mem_map.1 hmem
      exact List.mem_cons_of_mem _ (List.mem_cons_of_mem _ (mb.registers.argument_mem j))

theorem write_touched (firmware : Firmware σ) {a : UInt32} (hc : c.Carries i mb)
    (ha : a ∈ mb.registers.registers) (s : σ) (v : UInt32) :
    Touched mb.registers i c (c.write firmware s a v).2.1 := by
  have hstored : Touched mb.registers i c ((c.countWrite a).poke a v) := by
    obtain ⟨mb', hset, hregisters, -⟩ := Touched.refl hc
    refine ⟨mb', hset, hregisters, fun other hother => ?_⟩
    have hne : a ≠ other := fun heq => hother (heq ▸ ha)
    rw [peek_poke, if_neg hne]
    rfl
  by_cases hfaulty : a ∈ c.faultyWrites
  · rw [write_faulty firmware s hfaulty]
    exact .ofSame hc rfl rfl
  · by_cases hcommand : a = mb.registers.command
    · subst hcommand
      have hc' : (c.noted mb v).Carries i mb := hc.ofMailboxes rfl
      rw [hc.write_command hfaulty]
      exact hstored.trans (runCommand_touched firmware hc' s v)
    · rw [hc.write_register ha hcommand hfaulty]
      exact hstored

end Chip

/-- An access to a register of a mailbox touches no more than that mailbox. -/
theorem Served.touched {σ : Type} {firmware : Firmware σ} {c : Chip} {s : σ} {u' : Chip × σ}
    {i : Nat} {mb : Mailbox} {x : Access} (hc : c.Carries i mb)
    (hx : x.address ∈ mb.registers.registers) (h : Served firmware (c, s) x u') :
    Chip.Touched mb.registers i c u'.1 := by
  cases h with
  | read h | readFault h =>
    have htouched := Chip.read_touched hc hx
    rwa [Access.address, h] at htouched
  | @write _ _ _ _ _ v h | @writeFault _ _ _ _ _ v h =>
    have htouched := Chip.write_touched firmware hc hx s v
    rwa [Access.address, h] at htouched

/-- Neither do accesses in a row. -/
theorem Trace.touched {σ : Type} {firmware : Firmware σ} {c : Chip} {s : σ} {u' : Chip × σ}
    {i : Nat} {mb : Mailbox} {as : List Access} (hc : c.Carries i mb)
    (has : ∀ x ∈ as, x.address ∈ mb.registers.registers) (h : Trace firmware (c, s) as u') :
    Chip.Touched mb.registers i c u'.1 := by
  induction as generalizing c s mb with
  | nil =>
    cases h
    exact .refl hc
  | cons x as ih =>
    cases h with
    | @cons _ v _ _ _ hx h =>
      obtain ⟨c₁, s₁⟩ := v
      obtain ⟨hfirst, hrest⟩ := List.forall_mem_cons.1 has
      have htouched := hx.touched hc hfirst
      obtain ⟨mb₁, hc₁, hregisters⟩ := htouched.carries hc
      rw [← hregisters] at hrest htouched ⊢
      exact htouched.trans (ih hc₁ hrest h)

/-! ## §3. Machines with both mailboxes. -/

namespace World

variable {η : Type}

/-- Each mailbox of a generation is on the machine at its place, and stands as told. -/
structure Stands (world : World η) (m : Mailboxes) (place : Channel → Nat)
    (x : Channel → Standing) : Prop where
  through : world.Through m.window
  bound : ∀ channel, m.registers? channel = some (x channel).mailbox.registers
  shows : ∀ channel, world.chip.Shows (place channel) (x channel)

/-- What the firmware of a machine acts on. -/
def state (world : World η) : η × Memory := (world.firmware, world.memory)

variable {world : World η} {m : Mailboxes} {place : Channel → Nat} {x : Channel → Standing}

theorem Stands.command_eq (h : world.Stands m place x) {b : Channel → RegisterBlock}
    (hb : ∀ channel, m.registers? channel = some (b channel)) (channel : Channel) :
    (x channel).mailbox.registers.command = (b channel).command :=
  congrArg RegisterBlock.command (Option.some.inj ((h.bound channel).symm.trans (hb channel)))

/-- The response register of one mailbox is no register of the other one. -/
theorem Stands.response_apart (h : world.Stands m place x) {channel other : Channel}
    (hne : other ≠ channel) :
    (x other).mailbox.registers.response ∉ (x channel).mailbox.registers.registers :=
  (Codename.registers_apart (h.bound channel) (h.bound other) hne.symm).2

/-- They are two mailboxes. -/
theorem Stands.place_ne (h : world.Stands m place x) {channel other : Channel}
    (hne : other ≠ channel) : place other ≠ place channel := by
  intro heq
  have hhere := (h.shows other).carries.here
  rw [heq, (h.shows channel).carries.here] at hhere
  refine h.response_apart hne ?_
  rw [← Option.some.inj hhere]
  exact response_mem_registers

/-- A transaction comes to what its mailbox says, and nothing happens to the other
one. -/
theorem Stands.transacted (h : world.Stands m place x) (firmware : Firmware (η × Memory))
    (channel : Channel) (opcode : UInt32) (sent : Arguments) :
    let world' := world.after firmware m channel opcode sent
    let s := world.state
    world.result firmware m channel opcode sent =
        (x channel).result firmware m.budget opcode sent s ∧
      world'.state = (x channel).firmwareAfter firmware m.budget opcode sent s ∧
      world'.Stands m place
        (Function.update x channel ((x channel).after firmware m.budget opcode sent s)) := by
  intro world' s
  obtain ⟨hthrough, as, hcourse, -, htrace⟩ :=
    course_trace h.through (h.bound channel) firmware opcode sent
  have hconcluded := concluded h.through (h.bound channel) (h.shows channel) firmware opcode sent
  have htouched := htrace.touched (h.shows channel).carries hcourse.address_mem
  refine ⟨hconcluded.result, hconcluded.state, hthrough, fun other => ?_, fun other => ?_⟩
  · by_cases hother : other = channel
    · rw [hother, Function.update_self, Standing.registers_after]
      exact h.bound channel
    · rw [Function.update_of_ne hother]
      exact h.bound other
  · by_cases hother : other = channel
    · rw [hother, Function.update_self]
      exact hconcluded.shows
    · rw [Function.update_of_ne hother]
      exact htouched.shows (h.shows channel).carries (h.shows other) (h.place_ne hother)
        (h.response_apart hother) ((h.shows other).works.ofTrace htrace)

/-- Where both mailboxes of a generation and no others are on a chip, it carries each of
them. -/
theorem carries_attached {c : Chip} {b : Channel → RegisterBlock}
    (hb : ∀ channel, m.registers? channel = some (b channel))
    (hattached : (c.mailboxes.map Mailbox.registers).Perm [b .rsmu, b .mp1]) (channel : Channel) :
    ∃ i mb, c.Carries i mb ∧ mb.registers = b channel := by
  have hrsmu : m.codename.registers? .rsmu = some (b .rsmu) := hb .rsmu
  have hmp1 : m.codename.registers? .mp1 = some (b .mp1) := hb .mp1
  have hblocks : m.codename.blocks = [b .rsmu, b .mp1] := by
    simp [Codename.blocks, hrsmu, hmp1]
  exact Chip.exists_carries (hb channel) (hblocks ▸ hattached)

/-- If nothing faults on it, each of them stands in some way. -/
theorem exists_stands {b : Channel → RegisterBlock} (hthrough : world.Through m.window)
    (hb : ∀ channel, m.registers? channel = some (b channel))
    (hattached : (world.chip.mailboxes.map Mailbox.registers).Perm [b .rsmu, b .mp1])
    (hreads : world.chip.faultyReads = []) (hwrites : world.chip.faultyWrites = []) :
    ∃ place x, world.Stands m place x := by
  choose place mb hcarries hregisters using carries_attached hb hattached
  refine ⟨place, fun channel => ⟨mb channel, world.chip.peek (mb channel).registers.response⟩,
    hthrough, fun channel => ?_, fun channel => ?_⟩
  · rw [hregisters]
    exact hb channel
  · exact ⟨hcarries channel, Chip.works_of_nil hreads hwrites _, rfl⟩

end World

/-! ## §4. Firmware that keeps its mailboxes apart. -/

/-- What the firmware knows falls into a part for each mailbox: the answer to a command
and what becomes of the part of its mailbox depend on that part alone, and the other
part stays as it is. -/
structure Firmware.Private {σ : Type} {π : Channel → Type} (firmware : Firmware σ)
    (command : Channel → UInt32) (part : ∀ channel, σ → π channel) : Prop where
  answer : ∀ channel opcode words s s', part channel s = part channel s' →
    (firmware (command channel) opcode words s).1 = (firmware (command channel) opcode words s').1
  own : ∀ channel opcode words s s', part channel s = part channel s' →
    part channel (firmware (command channel) opcode words s).2 =
      part channel (firmware (command channel) opcode words s').2
  other : ∀ channel other, other ≠ channel → ∀ opcode words s,
    part other (firmware (command channel) opcode words s).2 = part other s

namespace Standing

variable {σ : Type} {π : Channel → Type} {firmware : Firmware σ} {command : Channel → UInt32}
  {part : ∀ channel, σ → π channel} {x : Standing} {channel : Channel} {s s' : σ}

theorem answer_congr (h : firmware.Private command part)
    (hx : x.mailbox.registers.command = command channel) (hs : part channel s = part channel s')
    (opcode : UInt32) (sent : Arguments) :
    x.mailbox.answer firmware opcode sent s = x.mailbox.answer firmware opcode sent s' := by
  unfold Mailbox.answer
  rw [hx, h.answer channel opcode sent s s' hs]

/-- What a transaction comes to depends on the part of its mailbox alone. -/
theorem result_congr (h : firmware.Private command part)
    (hx : x.mailbox.registers.command = command channel) (hs : part channel s = part channel s')
    (budget : Nat) (opcode : UInt32) (sent : Arguments) :
    x.result firmware budget opcode sent s = x.result firmware budget opcode sent s' := by
  unfold result
  rw [answer_congr h hx hs]

theorem after_congr (h : firmware.Private command part)
    (hx : x.mailbox.registers.command = command channel) (hs : part channel s = part channel s')
    (budget : Nat) (opcode : UInt32) (sent : Arguments) :
    x.after firmware budget opcode sent s = x.after firmware budget opcode sent s' := by
  unfold after
  rw [answer_congr h hx hs]

theorem firmwareAfter_congr (h : firmware.Private command part)
    (hx : x.mailbox.registers.command = command channel) (hs : part channel s = part channel s')
    (budget : Nat) (opcode : UInt32) (sent : Arguments) :
    part channel (x.firmwareAfter firmware budget opcode sent s) =
      part channel (x.firmwareAfter firmware budget opcode sent s') := by
  unfold firmwareAfter
  split
  · rw [hx]
    exact h.own channel opcode sent s s' hs
  · exact hs

/-- A transaction on one mailbox leaves the part of the other one as it is. -/
theorem firmwareAfter_other (h : firmware.Private command part)
    (hx : x.mailbox.registers.command = command channel) {other : Channel} (hne : other ≠ channel)
    (budget : Nat) (opcode : UInt32) (sent : Arguments) (s : σ) :
    part other (x.firmwareAfter firmware budget opcode sent s) = part other s := by
  unfold firmwareAfter
  split
  · rw [hx]
    exact h.other channel other hne opcode sent s
  · rfl

end Standing

/-! ## §5. Rows of messages. -/

end Simulation

/-- Puts messages one after the other, whatever comes of them. -/
def Mailboxes.correspond (m : Mailboxes) : List Message → Program (List Exchange)
  | [] => return []
  | x :: rest => do
    let result ← (m.exchange x).run
    return ⟨x, result⟩ :: (← m.correspond rest)

namespace Simulation
namespace World

variable {η : Type} {π : Channel → Type} {firmware : Firmware (η × Memory)} {world : World η}
  {m : Mailboxes} {place : Channel → Nat} {x : Channel → Standing}
  {part : ∀ channel, η × Memory → π channel}

/-- What comes of a row of messages on a machine. -/
def exchanges (firmware : Firmware (η × Memory)) (world : World η) (m : Mailboxes)
    (messages : List Message) : List Exchange :=
  ((m.correspond messages).run (platform firmware) world).1

/-- The machine that the second message comes to is the one that the first one left. -/
theorem exchanges_cons (firmware : Firmware (η × Memory)) (world : World η) (m : Mailboxes)
    (msg : Message) (rest : List Message) :
    world.exchanges firmware m (msg :: rest) =
      ⟨msg, world.result firmware m msg.channel msg.opcode msg.arguments⟩ ::
        (world.after firmware m msg.channel msg.opcode msg.arguments).exchanges firmware m
          rest := by
  show (((m.exchange msg).run >>= fun result => m.correspond rest >>= fun xs =>
    return ⟨msg, result⟩ :: xs).run (platform firmware) world).1 = _
  rw [Program.run_bind, Program.run_bind]
  rfl

/-- Every message is put, in order. -/
theorem message_exchanges (firmware : Firmware (η × Memory)) (world : World η) (m : Mailboxes)
    (messages : List Message) :
    (world.exchanges firmware m messages).map Exchange.message = messages := by
  induction messages generalizing world with
  | nil => rfl
  | cons msg rest ih =>
    rw [exchanges_cons, List.map_cons, ih]

/-- Of two machines on which a mailbox and its part of the firmware are alike, one gets
all messages and one those to this mailbox.  What comes of the latter is the same. -/
theorem Stands.exchanges_alike {b : Channel → RegisterBlock}
    (hb : ∀ channel, m.registers? channel = some (b channel))
    (hfirmware : firmware.Private (fun channel => (b channel).command) part)
    (h : world.Stands m place x) {world' : World η} {x' : Channel → Standing}
    (h' : world'.Stands m place x') {channel : Channel} (hx : x channel = x' channel)
    (hs : part channel world.state = part channel world'.state) (messages : List Message) :
    (world.exchanges firmware m messages).filter (·.message.channel = channel) =
      world'.exchanges firmware m (messages.filter (·.channel = channel)) := by
  induction messages generalizing world world' x x' with
  | nil => rfl
  | cons msg rest ih =>
    obtain ⟨own, opcode, sent⟩ := msg
    obtain ⟨hresult, hstate, hstands⟩ := h.transacted firmware own opcode sent
    have hcommand := h.command_eq hb own
    rw [exchanges_cons]
    by_cases hown : own = channel
    · -- the message is put in both runs, to mailboxes that stand alike
      subst hown
      obtain ⟨hresult', hstate', hstands'⟩ := h'.transacted firmware own opcode sent
      rw [← hx] at hresult' hstate' hstands'
      have hsame : world.result firmware m own opcode sent =
          world'.result firmware m own opcode sent := by
        rw [hresult, hresult']
        exact Standing.result_congr hfirmware hcommand hs m.budget opcode sent
      have hafter := Standing.after_congr hfirmware hcommand hs m.budget opcode sent
      have hpart := Standing.firmwareAfter_congr hfirmware hcommand hs m.budget opcode sent
      rw [List.filter_cons_of_pos (by simp), List.filter_cons_of_pos (by simp), exchanges_cons,
        hsame]
      refine congrArg _ (ih hstands hstands' ?_ ?_)
      · rw [Function.update_self, Function.update_self]
        exact hafter
      · rw [hstate, hstate']
        exact hpart
    · -- it is put in the first run alone, and changes nothing that the second depends on
      have hother : channel ≠ own := Ne.symm hown
      rw [List.filter_cons_of_neg (by simpa using hown),
        List.filter_cons_of_neg (by simpa using hown)]
      refine ih hstands h' ?_ ?_
      · rw [Function.update_of_ne hother]
        exact hx
      · rw [hstate, Standing.firmwareAfter_other hfirmware hcommand hother]
        exact hs

/-- Both mailboxes of a generation are on a chip on which nothing faults, in whatever
state, with firmware that keeps them apart.  However the messages to the one and to the
other follow each other, what comes of those to one mailbox is what comes of them if
nothing is put to the other one. -/
theorem correspondence_separate {b : Channel → RegisterBlock} (hthrough : world.Through m.window)
    (hb : ∀ channel, m.registers? channel = some (b channel))
    (hattached : (world.chip.mailboxes.map Mailbox.registers).Perm [b .rsmu, b .mp1])
    (hreads : world.chip.faultyReads = []) (hwrites : world.chip.faultyWrites = [])
    (hfirmware : firmware.Private (fun channel => (b channel).command) part)
    (messages : List Message) (channel : Channel) :
    (world.exchanges firmware m messages).map Exchange.message = messages ∧
      (world.exchanges firmware m messages).filter (·.message.channel = channel) =
        world.exchanges firmware m (messages.filter (·.channel = channel)) := by
  obtain ⟨place, x, hstands⟩ := exists_stands hthrough hb hattached hreads hwrites
  refine ⟨message_exchanges firmware world m messages, ?_⟩
  exact hstands.exchanges_alike hb hfirmware hstands rfl rfl messages

end World
/-! ## §6. Mailboxes that share registers. -/

namespace Overlap

/-- The mailboxes of the first generation. -/
def mailboxes : Mailboxes := ⟨.summitRidge, 4, .standard⟩

def registers : Channel → RegisterBlock
  | .rsmu => ⟨0x03B1051C, 0x03B10568, 0x03B10590⟩
  | .mp1 => ⟨0x03B10528, 0x03B10564, 0x03B10598⟩

/-- How many commands a mailbox had. -/
def count : Channel → (UInt32 × UInt32) × Memory → UInt32
  | .rsmu, s => s.1.1
  | .mp1, s => s.1.2

/-- Firmware that tells with each command how many the mailbox had before. -/
def firmware : Firmware ((UInt32 × UInt32) × Memory) := fun command _ words ((n, k), memory) =>
  if command = (registers .rsmu).command then
    (some ⟨ResponseCode.ok, words.withWord0 n⟩, (n + 1, k), memory)
  else (some ⟨ResponseCode.ok, words.withWord0 k⟩, (n, k + 1), memory)

theorem private_firmware : firmware.Private (fun channel => (registers channel).command) count where
  answer channel opcode words s s' h := by
    cases channel <;> simp [firmware, registers, count] at h ⊢ <;> rw [h]
  own channel opcode words s s' h := by
    cases channel <;> simp [firmware, registers, count] at h ⊢ <;> exact h
  other channel other hne opcode words s := by
    cases channel <;> cases other <;> simp [firmware, registers, count] at hne ⊢

/-- A machine of that generation: one mailbox stalls for longer than a transaction
waits, and the other one is slow. -/
def machine : World (UInt32 × UInt32) where
  chip := { ({} : Chip).attachAll .summitRidge with
    mailboxes := [{ registers := registers .rsmu, stall := 5 },
      { registers := registers .mp1, latency := 1 }] }
  firmware := (0, 0)

/-- Messages to both mailboxes. -/
def messages : List Message :=
  [⟨.mp1, 5, .first 9⟩, ⟨.rsmu, 5, .pair 1 2⟩, ⟨.mp1, 6, .pair 3 4⟩, ⟨.rsmu, 6, .pair 5 6⟩,
    ⟨.rsmu, 7, .pair 7 8⟩]

/-- Two of the messages to the one mailbox are answered, and one is not. -/
theorem correspondence_overlap :
    (registers .rsmu).argument 2 = (registers .mp1).argument 0 ∧
      (machine.exchanges firmware mailboxes messages).map (·.result.toOption) =
        [some (.first 0), none, some (.pair 1 4), some (.pair 0 6), some (.pair 1 8)] ∧
      (machine.exchanges firmware mailboxes messages).map Exchange.message = messages ∧
      (machine.exchanges firmware mailboxes messages).filter (·.message.channel = .rsmu) =
        machine.exchanges firmware mailboxes (messages.filter (·.channel = .rsmu)) := by
  refine ⟨by decide, by decide +kernel, ?_⟩
  refine World.correspondence_separate (b := registers) ⟨rfl, by decide⟩ ?_ (.refl _) rfl rfl
    private_firmware messages .rsmu
  intro channel
  cases channel <;> rfl

end Overlap
end Simulation
end ManagementUnit
