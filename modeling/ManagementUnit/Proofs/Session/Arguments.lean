/-
  ManagementUnit.Proofs.Session.Arguments
  ────────────────────────────────
  The argument words on their way to the firmware and back.

  Four loops decide where a word goes: one takes a string of bytes apart, one writes
  the argument registers, one reads them back, and one puts the bytes together again.
  Two of them that swap words would cancel out wherever the firmware answers with the
  words it was sent.  So each end is held against the layout by itself: word `i` is the
  bytes from `4i` on, least significant first, and lies in the register at `args + 4i`
  when the opcode is written; what is shown are the words of the answer, laid out in the
  same way.

  Main results:
    * `Session.conducts_roundTrip` — storing a block, running a command and showing the
      block is one transaction with that block.
    * `Trace.sees`                 — the words are in the registers when the opcode is
      written.
    * `block_carried`              — nothing is lost on the way there and back.
-/
import ManagementUnit.Proofs.Session.Output
import ManagementUnit.Proofs.Simulation.Budget

namespace ManagementUnit

open Program (Conducts conducts_pure)

/-! ## §1. Bytes. -/

/-- The block that a string of 24 bytes reads as. -/
def Arguments.ofBytes (bytes : Bytes) : Arguments := ofFn fun j => wordAt bytes j.val

theorem Arguments.ofBytes?_eq {bytes : Bytes} (h : bytes.length = 24) :
    ofBytes? bytes = some (ofBytes bytes) :=
  if_pos h

theorem Arguments.toBytes_ofBytes {bytes : Bytes} (h : bytes.length = 24) :
    (ofBytes bytes).toBytes = bytes :=
  (ofBytes?_eq_some_iff.1 (ofBytes?_eq h)).symm

/-! ## §2. Storing, running and showing. -/

namespace Session

/-- What storing a block, running a command and showing the block come to. -/
structure RoundTrip where
  stored : Except EndpointError Nat
  commanded : Except EndpointError Nat
  shown : Except EndpointError Nat
  /-- The buffer that the block is shown in. -/
  filled : Bytes

/-- Stores a block, runs a command with it and shows the block. -/
def roundTrip (bytes : Bytes) (channel : Channel) (input buffer : Bytes) :
    SessionStep RoundTrip := do
  let stored ← write .arguments bytes
  let commanded ← write channel.endpoint input
  let (shown, filled) ← read .arguments buffer
  return { stored, commanded, shown, filled }

variable {s : Session} {channel : Channel} {input : Bytes} {opcode : UInt32} {b : RegisterBlock}

/-- It is one transaction, with the block that was stored, and what is shown afterwards
is the block that this one left. -/
theorem conducts_roundTrip (hpresent : s.isPresent channel.endpoint = true)
    (hopcode : Opcode.ofBytes? input = some opcode)
    (hb : s.driver.mailboxes.registers? channel = some b) (sent : Arguments) (buffer : Bytes) :
    ((roundTrip sent.toBytes channel input buffer).run s).Conducts s.driver.mailboxes.window
      fun as p => ∃ outcome,
        Course b opcode sent s.driver.mailboxes.budget as outcome ∧
          readCount b.response as ≤ s.driver.mailboxes.budget ∧
          p.1.stored = .ok sent.toBytes.length ∧ p.1.commanded = .ok input.length ∧
          p.2.slots = (s.slots.apply (.given sent)).apply (changeOf outcome) ∧
          p.2.Fills .arguments buffer p.1.shown p.1.filled := by
  let s₁ : Session := { s with slots := s.slots.apply (.given sent) }
  have hstore : (write .arguments sent.toBytes).run s = pure (.ok sent.toBytes.length, s₁) := by
    rw [run_write_of_spelled rfl (.arguments sent)]
    rfl
  have hcommand : (write channel.endpoint input).run s₁ =
      (s.driver.mailboxes.execute channel opcode sent).run >>= fun outcome =>
        s₁.conclude channel opcode outcome >>= fun p => pure (.ok input.length, p.2) := by
    have hpresent₁ : s₁.isPresent channel.endpoint = true := hpresent
    rw [run_write_of_spelled hpresent₁ (Action.spelled_of_opcode channel hopcode)]
    show ((command channel opcode >>= fun _ => pure ()).run s₁ >>= _) = _
    rw [StateT.run_bind, run_command]
    simp only [bind_assoc]
    rfl
  unfold roundTrip
  rw [StateT.run_bind, hstore, pure_bind]
  simp only [StateT.run_bind, hcommand, bind_assoc]
  refine (conducts_execute hb opcode sent).bind ?_
  intro as outcome hpost
  obtain ⟨hcourse, hreads⟩ := hpost
  refine (s₁.conducts_conclude channel opcode outcome _).bind ?_
  intro _ p hpost
  obtain ⟨rfl, hkept⟩ := hpost
  rw [pure_bind, run_read_of_rendering rfl rfl]
  refine conducts_pure ⟨outcome, ?_, ?_, rfl, rfl, ?_, ?_⟩
  · rwa [List.append_nil, List.append_nil]
  · rwa [List.append_nil, List.append_nil]
  · exact congrArg (fun p => p.2.slots) hkept
  · exact fills_of_put rfl (fun _ => rfl) buffer

end Session

/-! ## §3. What the firmware gets to see. -/

namespace Simulation

/-- From `u` to `u'` by the accesses `as`, the opcode is written to the command register,
for the first time, and just then the argument registers hold the words. -/
def Sees {σ : Type} (firmware : Firmware σ) (u : Chip × σ) (as : List Access) (u' : Chip × σ)
    (b : RegisterBlock) (opcode : UInt32) (words : Arguments) : Prop :=
  ∃ before after c s, as = before ++ .write b.command opcode (.ok ()) :: after ∧
    (∀ w, .write b.command w (.ok ()) ∉ before) ∧
    Trace firmware u before (c, s) ∧
    Trace firmware (c, s) (.write b.command opcode (.ok ()) :: after) u' ∧
    ∀ j : Fin wordCount, c.peek (b.arguments + UInt32.ofNat j.val * 4) = words.get j

section Sees

variable {σ : Type} {firmware : Firmware σ} {c : Chip} {s : σ} {u' : Chip × σ} {i : Nat}
  {mb : Mailbox} {x : Standing} {opcode : UInt32} {sent : Arguments} {budget : Nat}
  {as : List Access} {r : Except Failure Arguments}

/-- A whole request shows the firmware its words. -/
theorem Trace.sees_request {n : Nat} {v : UInt32} (hc : c.Carries i mb)
    (h : Trace firmware (c, s)
      (mb.registers.poll n v ++ (mb.registers.request opcode sent).map Access.stored ++ as) u') :
    Sees firmware (c, s)
      (mb.registers.poll n v ++ (mb.registers.request opcode sent).map Access.stored ++ as) u'
      mb.registers opcode sent := by
  obtain ⟨c', s', -, hbefore, hrest, -, -, hwords⟩ := h.opcodeDue hc
  have hsplit := mb.registers.request_eq opcode sent
  refine ⟨_, as, c', s', mb.registers.stored_request opcode sent _ as,
    command_not_mem_of_stored hc.nodup hsplit n v, hbefore, hrest, fun j => ?_⟩
  rw [← hwords, Chip.argumentWords, Arguments.get_ofFn]
  rfl

/-- So does every transaction with a mailbox that opens and does not fault. -/
theorem Trace.sees (hx : c.Shows i x) (hopens : x.Opens budget)
    (hcourse : Course x.mailbox.registers opcode sent budget as r)
    (hreads : readCount x.mailbox.registers.response as ≤ budget)
    (h : Trace firmware (c, s) as u') :
    Sees firmware (c, s) as u' x.mailbox.registers opcode sent := by
  cases h.faultless hx.works hcourse hreads with
  | shut => exact absurd hopens (h.not_opens hx)
  | unanswered | rejected | answered => exact h.sees_request hx.carries

end Sees

/-! ## §4. There and back. -/

namespace World

variable {η : Type} {firmware : Firmware (η × Memory)} {world : World η} {m : Mailboxes}
  {channel : Channel} {i : Nat} {mb : Mailbox} {opcode : UInt32} {sent : Arguments}

/-- Mailbox number `i` of a machine is one that the driver gets answers from: it is not in
use, it is ready in time, and no register of it faults. -/
structure Ready (world : World η) (m : Mailboxes) (channel : Channel) (i : Nat) (mb : Mailbox) :
    Prop where
  through : world.Through m.window
  registers : m.registers? channel = some mb.registers
  carries : world.chip.Carries i mb
  works : world.chip.Works mb.registers
  ready : mb.neverReady = false
  idle : world.chip.peek mb.registers.response ≠ 0
  inTime : mb.stall + mb.latency + 2 ≤ m.budget

/-- A transaction with such a mailbox shows the firmware the words of the request once, and
comes to what the firmware answers. -/
theorem Ready.transacted (h : world.Ready m channel i mb)
    (hstatus : (mb.answer firmware opcode sent (world.firmware, world.memory)).status ≠ 0)
    {as : List Access} {r : Except Failure Arguments} {u' : Chip × (η × Memory)}
    (hcourse : Course mb.registers opcode sent m.budget as r)
    (hreads : readCount mb.registers.response as ≤ m.budget)
    (htrace : Trace firmware world.core as u') :
    Sees firmware world.core as u' mb.registers opcode sent ∧
      u'.1.commands = world.chip.commands ++ [⟨mb.registers.command, opcode, sent⟩] ∧
      r = (mb.answer firmware opcode sent (world.firmware, world.memory)).result := by
  let x : Standing := ⟨mb, world.chip.peek mb.registers.response⟩
  have hx : world.chip.Shows i x := ⟨h.carries, h.works, rfl⟩
  have hinTime := h.inTime
  have hopens : x.Opens m.budget := ⟨h.ready, h.idle, show mb.stall < m.budget by omega⟩
  obtain ⟨-, hcommands⟩ := htrace.metered hx hcourse hreads
  rw [Standing.issues, if_pos hopens] at hcommands
  refine ⟨htrace.sees hx hopens hcourse hreads, hcommands, ?_⟩
  rw [(htrace.concluded hx hcourse hreads).result, Standing.result_eq h.ready h.idle hstatus,
    if_pos hinTime]

end World
end Simulation

open Simulation

/-- A block went to the firmware as it was stored, and its answer came back as it was
given. -/
structure Session.RoundTrip.Carried {η : Type} (trip : RoundTrip) (firmware : Firmware (η × Memory))
    (world world' : World η) (as : List Access) (mb : Mailbox) (opcode : UInt32)
    (bytes input buffer : Bytes) (sent : Arguments) (answer : Answer) : Prop where
  stored : trip.stored = .ok 24
  commanded : trip.commanded = .ok input.length
  shown : trip.shown = .ok 24
  /-- What was sent are the words of the bytes, from the first on, least significant byte
  first. -/
  words : ∀ j : Fin wordCount, Word.toBytes (sent.get j) = (bytes.drop (4 * j.val)).take 4
  /-- They are in the argument registers when the opcode is written. -/
  seen : Sees firmware world.core as world'.core mb.registers opcode sent
  /-- So the firmware sees just this command. -/
  recorded : world'.chip.commands = world.chip.commands ++ [⟨mb.registers.command, opcode, sent⟩]
  /-- If it answers with success, the words of the answer are shown. -/
  answered : answer.status = ResponseCode.ok →
    trip.filled = answer.words.toBytes ++ buffer.drop 24
  /-- If these are the words that were sent, what was stored is shown again. -/
  echoed : answer.status = ResponseCode.ok → answer.words = sent →
    trip.filled = bytes ++ buffer.drop 24

/-- So it is for every session and every machine with a mailbox that is ready. -/
theorem Session.carried_roundTrip {η : Type} {firmware : Firmware (η × Memory)} {world : World η}
    {s : Session} {channel : Channel} {i : Nat} {mb : Mailbox} {opcode : UInt32}
    {bytes input buffer : Bytes} (hready : world.Ready s.driver.mailboxes channel i mb)
    (hpresent : s.isPresent channel.endpoint = true) (hlength : bytes.length = 24)
    (hopcode : Opcode.ofBytes? input = some opcode) (hroom : 24 ≤ buffer.length)
    (hstatus : (mb.answer firmware opcode (.ofBytes bytes)
      (world.firmware, world.memory)).status ≠ 0) :
    let program := (roundTrip bytes channel input buffer).run s
    let ran := program.run (World.platform firmware) world
    ∃ as, Traffic s.driver.mailboxes.window
        (program.journal (World.platform firmware) world) as ∧
      ran.1.1.Carried firmware world ran.2 as mb opcode bytes input buffer (.ofBytes bytes)
        (mb.answer firmware opcode (.ofBytes bytes) (world.firmware, world.memory)) := by
  intro program ran
  have hbytes : (Arguments.ofBytes bytes).toBytes = bytes := Arguments.toBytes_ofBytes hlength
  -- the round trip is one transaction, and what this does to the chip is a trace
  have hconducts := conducts_roundTrip hpresent hopcode hready.registers (.ofBytes bytes) buffer
  rw [hbytes] at hconducts
  obtain ⟨as, has, outcome, hcourse, hreads, hstored, hcommanded, hkept, hfills⟩ :=
    hconducts _ _ (Program.reaches_journal (World.platform firmware) program world)
  obtain ⟨htrace, -⟩ := has.trace hready.through (.ofJournal program world)
  obtain ⟨hseen, hrecorded, houtcome⟩ := hready.transacted hstatus hcourse hreads htrace
  have hvalue : (ran.1.2.value .arguments).length = 24 := Arguments.length_toBytes _
  have hanswered : (mb.answer firmware opcode (.ofBytes bytes)
      (world.firmware, world.memory)).status = ResponseCode.ok →
      ran.1.1.filled = (mb.answer firmware opcode (.ofBytes bytes)
        (world.firmware, world.memory)).words.toBytes ++ buffer.drop 24 := by
    intro hok
    have hfilled := hfills.shown (hvalue ▸ hroom)
    rw [hvalue, value, hkept, houtcome, Answer.result, if_pos hok] at hfilled
    exact hfilled
  exact ⟨as, has, {
    stored := hstored.trans (congrArg _ hlength)
    commanded := hcommanded
    shown := hvalue ▸ hfills.fits_iff.2 (hvalue ▸ hroom)
    words := fun j => by rw [← Arguments.slice_toBytes, hbytes]
    seen := hseen
    recorded := hrecorded
    answered := hanswered
    echoed := fun hok hecho => by rw [hanswered hok, hecho, hbytes] }⟩

/-- A string of bytes is a block exactly if there are 24 of them, and reading and writing
blocks undo each other.  A block that is stored before a command to a mailbox that is ready
is what the firmware sees, word for word in the argument registers, and what it answers
with success is what is shown afterwards. -/
theorem block_carried {η : Type} (firmware : Firmware (η × Memory)) (world : World η)
    (s : Session) :
    ((∀ bytes, (Arguments.ofBytes? bytes).isSome = true ↔ bytes.length = 24) ∧
      (∀ a : Arguments, Arguments.ofBytes? a.toBytes = some a) ∧
      (∀ bytes, bytes.length = 24 →
        (Arguments.ofBytes? bytes).map Arguments.toBytes = some bytes) ∧
      ∀ (a : Arguments) (j : Fin wordCount),
        (a.toBytes.drop (4 * j.val)).take 4 = Word.toBytes (a.get j)) ∧
    ∀ channel i mb opcode bytes input buffer,
      world.Ready s.driver.mailboxes channel i mb → s.isPresent channel.endpoint = true →
      bytes.length = 24 → Opcode.ofBytes? input = some opcode → 24 ≤ buffer.length →
      let sent := Arguments.ofBytes bytes
      let answer := mb.answer firmware opcode sent (world.firmware, world.memory)
      answer.status ≠ 0 →
      let program := (Session.roundTrip bytes channel input buffer).run s
      let ran := program.run (World.platform firmware) world
      ∃ as, Traffic s.driver.mailboxes.window
          (program.journal (World.platform firmware) world) as ∧
        ran.1.1.Carried firmware world ran.2 as mb opcode bytes input buffer sent answer := by
  refine ⟨⟨Arguments.isSome_ofBytes?, Arguments.ofBytes?_toBytes, ?_, Arguments.slice_toBytes⟩, ?_⟩
  · intro bytes hlength
    rw [Arguments.ofBytes?_eq hlength]
    exact congrArg some (Arguments.toBytes_ofBytes hlength)
  · intro channel i mb opcode bytes input buffer hready hpresent hlength hopcode hroom sent answer
      hstatus
    exact Session.carried_roundTrip hready hpresent hlength hopcode hroom hstatus

namespace Turned

open Cramped (session)

/-- Firmware that answers with the words it was sent, the last one first. -/
def firmware : Firmware (Unit × Memory) := fun _ _ words s =>
  (some ⟨ResponseCode.ok, .ofFn fun j => words.get j.rev⟩, s)

/-- A machine with the mailboxes of a generation. -/
def machine : World Unit where
  chip := ({} : Chip).attachAll .matisse
  firmware := ()

/-- The bytes that are stored. -/
def bytes : Bytes := (List.range 24).map UInt8.ofNat

/-- What is shown of them after a command. -/
def trip : Session.RoundTrip :=
  (((Session.roundTrip bytes .mp1 [5] (List.replicate 25 0xFF)).run session).run
    (World.platform firmware) machine).1.1

/-- The words come back in the order of the answer, each with its bytes in the order in
which they were stored, and the last byte of the buffer stays. -/
theorem block_carried_turned :
    trip.shown = .ok 24 ∧
      trip.filled = [20, 21, 22, 23, 16, 17, 18, 19, 12, 13, 14, 15, 8, 9, 10, 11, 4, 5, 6, 7,
        0, 1, 2, 3, 0xFF] := by
  have hb : session.driver.mailboxes.registers? .mp1 = some Revision.v11.registers := rfl
  obtain ⟨i, hcarries⟩ := Chip.carries_attachAll (c := {}) rfl hb
  have hready : machine.Ready session.driver.mailboxes .mp1 i
      { registers := Revision.v11.registers } :=
    { through := ⟨rfl, by decide⟩
      registers := hb
      carries := hcarries
      works := Chip.works_of_nil rfl rfl _
      ready := rfl
      idle := by decide
      inTime := by decide }
  obtain ⟨-, hcarried⟩ := block_carried firmware machine session
  obtain ⟨as, -, htrip⟩ := hcarried .mp1 i _ 5 bytes [5] (List.replicate 25 0xFF) hready rfl rfl rfl
    (by decide) (by decide)
  exact ⟨htrip.shown, htrip.answered rfl⟩

end Turned
end ManagementUnit
