/-
  ManagementUnit.Proofs.Simulation.Books
  ────────────────────────────────
  The books that a simulated machine keeps, and what they are worth.

  Whatever is said about how the driver treats the hardware is read off the tallies of
  a chip and its record of commands.  They are entered in several places: where a word
  is read, where one is written, where a command runs, whether the access faults or
  not, and whether the mailbox answers or not.

  Here they are compared with the moves that were made.  A move attempts an access if it
  goes through the data register (`Moment.attempt?`), and it issues a command if it is a
  write that does not fault, to an address where a mailbox has its command register
  (`Moment.issued?`).  What these depend on, the address that is selected, the
  mailboxes that are there and the addresses that fault, is told by the earlier moves.

  One move changes the books as it should (`Entered`, `entered_make`), and so do moves
  in a row (`Exact.meetAll`).

  Main results:
    * `Chip.record_write` — what a write enters, be it a command or not.
    * `Exact.meetAll`     — after any moves, the books are exact.
    * `books_exact`       — so they are from the beginning, and at each move.
-/
import ManagementUnit.Proofs.Simulation.Budget
import ManagementUnit.Proofs.Simulation.Words
import Mathlib.Data.List.DropRight

namespace ManagementUnit

/-! ## §1. Tallies and accesses. -/

/-- One more is one more in total. -/
theorem Tally.total_count (t : Tally) (a : UInt32) : (t.count a).total = t.total + 1 := by
  obtain ⟨entries⟩ := t
  show Tally.total ⟨Sparse.update a (Sparse.lookup entries a + 1) entries⟩ =
    Tally.total ⟨entries⟩ + 1
  -- by induction on the entries: the first one with the address has its number replaced
  induction entries with
  | nil => rfl
  | cons entry rest ih =>
    obtain ⟨k, n⟩ := entry
    simp only [Sparse.update, Sparse.lookup]
    by_cases hk : k = a
    · simp only [if_pos hk, Tally.total, List.foldr_cons]
      omega
    · simp only [if_neg hk]
      simp only [Tally.total, List.foldr_cons] at ih ⊢
      omega

namespace Operation

/-- Whether an operation reads a given address. -/
def isRead (address : UInt32) : Operation → Bool
  | read a => a == address
  | write .. => false

/-- Whether an operation writes to a given address. -/
def isWrite (address : UInt32) : Operation → Bool
  | read _ => false
  | write a _ => a == address

end Operation

namespace Simulation

/-! ## §2. What the chip enters. -/

/-- What a chip keeps of what was done to it. -/
structure Record where
  reads : Tally := .empty
  writes : Tally := .empty
  commands : List Command := []

/-- The record with one more access, and the command that it issued. -/
def Record.enter (r : Record) : Option Operation → Option Command → Record
  | none, _ => r
  | some (.read a), _ => { r with reads := r.reads.count a }
  | some (.write a _), issued? =>
    { r with writes := r.writes.count a, commands := r.commands ++ issued?.toList }

namespace Chip

variable {σ : Type} {c c' : Chip} {a v : UInt32}

/-- The record of a chip. -/
def record (c : Chip) : Record := ⟨c.reads, c.writes, c.commands⟩

/-- The registers of its mailboxes, in the order in which these were attached. -/
def blocks (c : Chip) : List RegisterBlock := c.mailboxes.map Mailbox.registers

/-- The command that a write issues: it must not fault, and some mailbox must have its
command register there.  The first such mailbox says where the words are. -/
def issues? (c : Chip) (a v : UInt32) : Option Command :=
  if a ∈ c.faultyWrites then none
  else (c.blocks.find? (·.command == a)).map fun b => ⟨a, v, (c.poke a v).argumentWords b⟩

theorem record_read (c : Chip) (a : UInt32) :
    (c.read a).2.record = c.record.enter (some (.read a)) none := by
  rw [Chip.eq_of_read (show c.read a = (_, (c.read a).2) from rfl)]
  rfl

/-- A mailbox is found by its command register. -/
theorem mailboxAt?_of_blocks {b : RegisterBlock} (h : c.blocks.find? (·.command == a) = some b) :
    ∃ i mb, c.mailboxAt? a = some i ∧ c.mailboxes[i]? = some mb ∧ mb.registers = b ∧
      b.command = a := by
  rw [blocks, List.find?_map] at h
  obtain ⟨mb, hmb, rfl⟩ := Option.map_eq_some_iff.1 h
  obtain ⟨i, hi, hget⟩ := findIdx?_of_find? hmb
  have hcommand : (mb.registers.command == a) = true :=
    List.find?_some (p := fun m : Mailbox => m.registers.command == a) hmb
  exact ⟨i, mb, hi, hget, rfl, eq_of_beq hcommand⟩

theorem mailboxAt?_of_no_block (h : c.blocks.find? (·.command == a) = none) :
    c.mailboxAt? a = none := by
  rw [blocks, List.find?_map, Option.map_eq_none_iff, List.find?_eq_none] at h
  exact List.findIdx?_eq_none_iff.2 fun mb hmb => Bool.eq_false_iff.2 (h mb hmb)

/-- A write is counted, and enters the command that it issues, whether the mailbox gets
ready or not, and whatever the firmware makes of it. -/
theorem record_write (firmware : Firmware σ) (c : Chip) (s : σ) (a v : UInt32) :
    (c.write firmware s a v).2.1.record = c.record.enter (some (.write a v)) (c.issues? a v) := by
  unfold write issues?
  dsimp only
  by_cases hfaulty : a ∈ c.faultyWrites
  · rw [if_pos hfaulty, if_pos hfaulty, Record.enter, Option.toList_none, List.append_nil]
    rfl
  · rw [if_neg hfaulty, if_neg hfaulty]
    cases hblock : c.blocks.find? (·.command == a) with
    | none =>
      rw [mailboxAt?_of_no_block hblock, Option.map_none, Record.enter, Option.toList_none,
        List.append_nil]
      rfl
    | some b =>
      obtain ⟨i, mb, hi, hget, rfl, rfl⟩ := mailboxAt?_of_blocks hblock
      rw [hi]
      dsimp only
      rw [hget]
      dsimp only
      rw [runCommand_eq]
      rfl

theorem map_registers_set {mailboxes : List Mailbox} {i : Nat} {mb mb' : Mailbox}
    (h : mailboxes[i]? = some mb) (hregisters : mb'.registers = mb.registers) :
    (mailboxes.set i mb').map Mailbox.registers = mailboxes.map Mailbox.registers := by
  obtain ⟨hi, rfl⟩ := List.getElem?_eq_some_iff.1 h
  have hi' : i < (mailboxes.map Mailbox.registers).length := by rwa [List.length_map]
  rw [List.map_set, hregisters, ← List.getElem_map Mailbox.registers (h := hi'),
    List.set_getElem_self]

/-- An access moves no register of a mailbox. -/
theorem blocks_read (c : Chip) (a : UInt32) : (c.read a).2.blocks = c.blocks := by
  unfold read
  dsimp only
  split
  · rfl
  · split
    · rfl
    · split
      · rfl
      · next hmb =>
        split
        · rfl
        · split
          · rfl
          · exact map_registers_set hmb rfl

theorem blocks_runCommand (firmware : Firmware σ) (c : Chip) (s : σ) {i : Nat} {mb : Mailbox}
    (h : c.mailboxes[i]? = some mb) (opcode : UInt32) :
    (c.runCommand firmware s i mb opcode).1.blocks = c.blocks := by
  unfold runCommand
  dsimp only
  split
  · rfl
  · simp only [blocks, poke, mailboxes_storeWords]
    exact map_registers_set h rfl

theorem blocks_write (firmware : Firmware σ) (c : Chip) (s : σ) (a v : UInt32) :
    (c.write firmware s a v).2.1.blocks = c.blocks := by
  unfold write
  dsimp only
  split
  · rfl
  · split
    · rfl
    · split
      · rfl
      · next hmb => exact blocks_runCommand firmware ((c.countWrite a).poke a v) s hmb v

/-- Nor does it change what cannot be accessed. -/
theorem faults_read (c : Chip) (a : UInt32) :
    (c.read a).2.faultyReads = c.faultyReads ∧ (c.read a).2.faultyWrites = c.faultyWrites := by
  rw [Chip.eq_of_read (show c.read a = (_, (c.read a).2) from rfl)]
  exact ⟨rfl, rfl⟩

theorem faults_write (firmware : Firmware σ) (c : Chip) (s : σ) (a v : UInt32) :
    (c.write firmware s a v).2.1.faultyReads = c.faultyReads ∧
      (c.write firmware s a v).2.1.faultyWrites = c.faultyWrites := by
  have hwrite : c.write firmware s a v = (_, (c.write firmware s a v).2.1, _) := rfl
  rw [Chip.eq_of_write hwrite]
  exact ⟨rfl, rfl⟩

end Chip

/-! ## §3. Moves. -/

/-- How a mailbox is set up. -/
inductive Tuning where
  | force (status? : Option UInt32)
  | neverReady (on : Bool)
  | stall (reads : Nat)
  | latency (reads : Nat)

/-- The mailbox, set up so. -/
def Tuning.apply : Tuning → Mailbox → Mailbox
  | force status?, mb => { mb with forced? := status? }
  | neverReady on, mb => { mb with neverReady := on }
  | stall reads, mb => { mb with stall := reads }
  | latency reads, mb => { mb with latency := reads }

/-- Its registers stay where they are. -/
theorem Tuning.map_registers_modify (tuning : Tuning) (mailboxes : List Mailbox) (i : Nat) :
    (mailboxes.modify i tuning.apply).map Mailbox.registers =
      mailboxes.map Mailbox.registers := by
  have hregisters : ∀ mb, (tuning.apply mb).registers = mb.registers := by
    intro mb
    cases tuning <;> rfl
  refine List.ext_getElem? fun j => ?_
  rw [List.getElem?_map, List.getElem?_map, List.getElem?_modify]
  cases mailboxes[j]? with
  | none => rfl
  | some mb =>
    by_cases hj : i = j
    · simp [hj, hregisters]
    · simp [hj]

/-- A mailbox that is set up is one of those that are there. -/
theorem Chip.adjust_spec {c c' : Chip} {command : UInt32} {f : Mailbox → Mailbox}
    (h : c.adjust command f = .ok c') :
    ∃ i, c' = { c with mailboxes := c.mailboxes.modify i f } := by
  unfold adjust at h
  split at h
  · next i _ =>
    cases h
    exact ⟨i, rfl⟩
  · cases h

/-- What can be done to a machine whose firmware has a state `η`. -/
inductive Move (η : Type) where
  /-- A configuration word is read. -/
  | read (offset : UInt16)
  /-- A configuration word is written. -/
  | write (offset : UInt16) (value : UInt32)
  | attach (block : RegisterBlock)
  | tune (command : UInt32) (tuning : Tuning)
  /-- The firmware learns to answer in another way. -/
  | teach (change : η → η)
  | failReads (address : UInt32)
  | failAll (address : UInt32)
  | heal (address : UInt32)
  | peek (address : UInt32)
  | poke (address value : UInt32)
  | identify (id : BridgeId)
  | clear

namespace Move

variable {η : Type}

/-- The address that a move selects. -/
def selected? (w : Window) : Move η → Option UInt32
  | write offset value => if offset = w.index then some value else none
  | _ => none

/-- The mailbox that a move attaches. -/
def attached? : Move η → Option RegisterBlock
  | attach block => some block
  | _ => none

/-- Whether a move makes reads of an address fault, or lets them work again. -/
def readFault? (a : UInt32) : Move η → Option Bool
  | failReads b | failAll b => if b = a then some true else none
  | heal b => if b = a then some false else none
  | _ => none

/-- Whether a move makes writes to an address fault, or lets them work again. -/
def writeFault? (a : UInt32) : Move η → Option Bool
  | failAll b => if b = a then some true else none
  | heal b => if b = a then some false else none
  | _ => none

/-- Whether a move makes the books forget. -/
def isClear : Move η → Bool
  | clear => true
  | _ => false

end Move

/-- The machine after a move.  A mailbox that is not there is not set up. -/
def World.make {η : Type} (firmware : Firmware (η × Memory)) (world : World η) :
    Move η → World η
  | .read offset => (World.platform firmware (.readBridge offset) world).2
  | .write offset value => (World.platform firmware (.writeBridge offset value) world).2
  | .attach block => { world with chip := world.chip.attach block }
  | .tune command tuning =>
    match world.chip.adjust command tuning.apply with
    | .ok chip => { world with chip }
    | .error _ => world
  | .teach change => { world with firmware := change world.firmware }
  | .failReads a => { world with chip := world.chip.failReads a }
  | .failAll a => { world with chip := world.chip.failAll a }
  | .heal a => { world with chip := world.chip.heal a }
  | .peek _ => world
  | .poke a v => { world with chip := world.chip.poke a v }
  | .identify id => { world with chip := { world.chip with bridge? := some id } }
  | .clear => { world with chip := world.chip.clearRecord }

/-- A move, and the machine as it was before. -/
structure Moment (η : Type) where
  world : World η
  move : Move η

namespace Moment

variable {η : Type}

/-- The access that a move attempts, be it one that faults: what goes through the data
register goes to the selected address. -/
def attempt? (w : Window) (x : Moment η) : Option Operation :=
  match x.move with
  | .read offset => if offset = w.data then some (.read x.world.bridge.index) else none
  | .write offset value =>
    if offset = w.data then some (.write x.world.bridge.index value) else none
  | _ => none

/-- The command that a move issues. -/
def issued? (w : Window) (x : Moment η) : Option Command :=
  match x.attempt? w with
  | some (.write a v) => x.world.chip.issues? a v
  | _ => none

/-- What comes of a move. -/
def next (firmware : Firmware (η × Memory)) (world : World η) (move : Move η) :
    Moment η × World η :=
  (⟨world, move⟩, world.make firmware move)

end Moment

/-! ## §4. What one move changes. -/

/-- What a move changes of the selected address, the mailboxes, the faults and the
books. -/
structure Entered {η : Type} (w : Window) (x : Moment η) (world' : World η) : Prop where
  through : world'.Through w
  index : world'.bridge.index = (x.move.selected? w).getD x.world.bridge.index
  blocks : world'.chip.blocks = x.world.chip.blocks ++ x.move.attached?.toList
  readFaults : ∀ a, a ∈ world'.chip.faultyReads ↔
    (x.move.readFault? a).getD (decide (a ∈ x.world.chip.faultyReads)) = true
  writeFaults : ∀ a, a ∈ world'.chip.faultyWrites ↔
    (x.move.writeFault? a).getD (decide (a ∈ x.world.chip.faultyWrites)) = true
  record : world'.chip.record =
    if x.move.isClear then {} else x.world.chip.record.enter (x.attempt? w) (x.issued? w)

section Making

variable {η : Type} {w : Window} {world : World η}

/-- Away from the data register a read changes nothing. -/
theorem World.Through.readOther (h : world.Through w) (firmware : Firmware (η × Memory))
    {offset : UInt16} (hoffset : offset ≠ w.data) :
    (World.platform firmware (.readBridge offset) world).2 = world := by
  have hwindow := h.window_eq
  show { world with chip := (world.bridge.read world.chip offset).2 } = world
  unfold Bridge.read
  rw [hwindow, if_neg hoffset]
  split
  · rfl
  · split <;> rfl

/-- Away from both registers a write changes nothing. -/
theorem World.Through.writeOther (h : world.Through w) (firmware : Firmware (η × Memory))
    {offset : UInt16} (hindex : offset ≠ w.index) (hdata : offset ≠ w.data) (value : UInt32) :
    (World.platform firmware (.writeBridge offset value) world).2 = world := by
  have hwindow := h.window_eq
  show (world.writeBridge firmware offset value).2 = world
  simp only [World.writeBridge, Bridge.write, hwindow, if_neg hindex, if_neg hdata]

/-- A move that neither selects an address nor attaches a mailbox, and makes nothing fault
or work again or be forgotten. -/
structure Move.Plain (w : Window) (move : Move η) : Prop where
  selected : move.selected? w = none
  attached : move.attached? = none
  readFault : ∀ a, move.readFault? a = none
  writeFault : ∀ a, move.writeFault? a = none
  kept : move.isClear = false

/-- Such a move changes no more than the books. -/
theorem Entered.ofPlain {move : Move η} {world' : World η} (h : world.Through w)
    (hmove : move.Plain w) (hbridge : world'.bridge = world.bridge)
    (hblocks : world'.chip.blocks = world.chip.blocks)
    (hfaults : world'.chip.faultyReads = world.chip.faultyReads ∧
      world'.chip.faultyWrites = world.chip.faultyWrites)
    (hrecord : world'.chip.record = world.chip.record.enter (Moment.attempt? w ⟨world, move⟩)
      (Moment.issued? w ⟨world, move⟩)) : Entered w ⟨world, move⟩ world' where
  through := ⟨hbridge ▸ h.window_eq, h.proper⟩
  index := by rw [hbridge, hmove.selected, Option.getD_none]
  blocks := by rw [hblocks, hmove.attached, Option.toList_none, List.append_nil]
  readFaults a := by rw [hfaults.1, hmove.readFault, Option.getD_none, decide_eq_true_iff]
  writeFaults a := by rw [hfaults.2, hmove.writeFault, Option.getD_none, decide_eq_true_iff]
  record := by
    rw [hrecord, hmove.kept]
    rfl

/-- And if it attempts no access, it changes nothing of all this. -/
theorem Entered.ofIdle {move : Move η} {world' : World η} (h : world.Through w)
    (hmove : move.Plain w) (hattempt : Moment.attempt? w ⟨world, move⟩ = none)
    (hbridge : world'.bridge = world.bridge) (hblocks : world'.chip.blocks = world.chip.blocks)
    (hfaults : world'.chip.faultyReads = world.chip.faultyReads ∧
      world'.chip.faultyWrites = world.chip.faultyWrites)
    (hrecord : world'.chip.record = world.chip.record) : Entered w ⟨world, move⟩ world' := by
  refine .ofPlain h hmove hbridge hblocks hfaults ?_
  rw [hattempt]
  exact hrecord

theorem mem_cons_iff_getD (a b : UInt32) (faulty : List UInt32) :
    a ∈ b :: faulty ↔
      ((if b = a then some true else none).getD (decide (a ∈ faulty))) = true := by
  by_cases hb : b = a
  · simp [hb]
  · simp [hb, Ne.symm hb]

theorem mem_filter_iff_getD (a b : UInt32) (faulty : List UInt32) :
    a ∈ faulty.filter (· ≠ b) ↔
      ((if b = a then some false else none).getD (decide (a ∈ faulty))) = true := by
  by_cases hb : b = a
  · simp [hb]
  · simp [hb, Ne.symm hb]

/-- A configuration read enters the access that it attempts. -/
theorem entered_read (h : world.Through w) (firmware : Firmware (η × Memory)) (offset : UInt16) :
    Entered w ⟨world, .read offset⟩ (world.make firmware (.read offset)) := by
  have hplain : Move.Plain w (.read offset : Move η) :=
    ⟨rfl, rfl, fun _ => rfl, fun _ => rfl, rfl⟩
  by_cases hdata : offset = w.data
  · subst hdata
    have hmake : world.make firmware (.read w.data) = _ :=
      congrArg Prod.snd (h.readData firmware)
    rw [hmake]
    refine .ofPlain h hplain rfl (Chip.blocks_read ..) (Chip.faults_read ..) ?_
    have hattempt : Moment.attempt? w ⟨world, .read w.data⟩ =
        some (.read world.bridge.index) := if_pos rfl
    rw [hattempt]
    exact Chip.record_read ..
  · have hmake : world.make firmware (.read offset) = world := h.readOther firmware hdata
    rw [hmake]
    exact .ofIdle h hplain (if_neg hdata) rfl rfl ⟨rfl, rfl⟩ rfl

/-- A configuration write enters the access that it attempts, selects an address, or does
nothing. -/
theorem entered_write (h : world.Through w) (firmware : Firmware (η × Memory)) (offset : UInt16)
    (value : UInt32) :
    Entered w ⟨world, .write offset value⟩ (world.make firmware (.write offset value)) := by
  have hplain : offset ≠ w.index → Move.Plain w (.write offset value : Move η) :=
    fun hindex => ⟨if_neg hindex, rfl, fun _ => rfl, fun _ => rfl, rfl⟩
  by_cases hdata : offset = w.data
  · subst hdata
    have hmake : world.make firmware (.write w.data value) = _ :=
      congrArg Prod.snd (h.writeData firmware value)
    rw [hmake]
    refine .ofPlain h (hplain h.proper.data_ne_index) rfl (Chip.blocks_write ..)
      (Chip.faults_write ..) ?_
    have hattempt : Moment.attempt? w ⟨world, .write w.data value⟩ =
        some (.write world.bridge.index value) := if_pos rfl
    rw [Moment.issued?, hattempt]
    exact Chip.record_write ..
  · have hattempt : Moment.attempt? w ⟨world, .write offset value⟩ = none := if_neg hdata
    by_cases hindex : offset = w.index
    · subst hindex
      have hmake : world.make firmware (.write w.index value) = _ :=
        congrArg Prod.snd (h.select firmware value)
      rw [hmake]
      refine ⟨⟨h.window_eq, h.proper⟩, ?_, (List.append_nil _).symm,
        fun a => decide_eq_true_iff.symm, fun a => decide_eq_true_iff.symm, ?_⟩
      · rw [Move.selected?, if_pos rfl, Option.getD_some]
      · rw [hattempt]
        rfl
    · have hmake : world.make firmware (.write offset value) = world :=
        h.writeOther firmware hindex hdata value
      rw [hmake]
      exact .ofIdle h (hplain hindex) hattempt rfl rfl ⟨rfl, rfl⟩ rfl

/-- Each move changes what it says, and enters the access that it attempts. -/
theorem entered_make (h : world.Through w) (firmware : Firmware (η × Memory)) (move : Move η) :
    Entered w ⟨world, move⟩ (world.make firmware move) := by
  have hthrough : ∀ {chip : Chip}, World.Through { world with chip } w :=
    ⟨h.window_eq, h.proper⟩
  have hreads : ∀ a, a ∈ world.chip.faultyReads ↔
      (none.getD (decide (a ∈ world.chip.faultyReads))) = true :=
    fun a => decide_eq_true_iff.symm
  have hwrites : ∀ a, a ∈ world.chip.faultyWrites ↔
      (none.getD (decide (a ∈ world.chip.faultyWrites))) = true :=
    fun a => decide_eq_true_iff.symm
  cases move with
  | read offset => exact entered_read h firmware offset
  | write offset value => exact entered_write h firmware offset value
  | attach block => exact ⟨hthrough, rfl, List.map_append, hreads, hwrites, rfl⟩
  | failReads a =>
    exact ⟨hthrough, rfl, (List.append_nil _).symm, fun b => mem_cons_iff_getD .., hwrites, rfl⟩
  | failAll a =>
    exact ⟨hthrough, rfl, (List.append_nil _).symm, fun b => mem_cons_iff_getD ..,
      fun b => mem_cons_iff_getD .., rfl⟩
  | heal a =>
    exact ⟨hthrough, rfl, (List.append_nil _).symm, fun b => mem_filter_iff_getD ..,
      fun b => mem_filter_iff_getD .., rfl⟩
  | clear => exact ⟨hthrough, rfl, (List.append_nil _).symm, hreads, hwrites, rfl⟩
  | tune command tuning =>
    have hplain : Move.Plain w (.tune command tuning : Move η) :=
      ⟨rfl, rfl, fun _ => rfl, fun _ => rfl, rfl⟩
    cases hadjust : world.chip.adjust command tuning.apply with
    | error fault =>
      simp only [World.make, hadjust]
      exact .ofIdle h hplain rfl rfl rfl ⟨rfl, rfl⟩ rfl
    | ok chip =>
      simp only [World.make, hadjust]
      obtain ⟨i, rfl⟩ := Chip.adjust_spec hadjust
      exact .ofIdle h hplain rfl rfl (tuning.map_registers_modify _ i) ⟨rfl, rfl⟩ rfl
  | teach | peek | poke | identify =>
    exact .ofIdle h ⟨rfl, rfl, fun _ => rfl, fun _ => rfl, rfl⟩ rfl rfl rfl ⟨rfl, rfl⟩ rfl

end Making

/-! ## §5. What the moves tell. -/

namespace Record

variable (r : Record) (op? : Option Operation) (command? : Option Command)

theorem reads_enter (a : UInt32) :
    (r.enter op? command?).reads.get a =
      r.reads.get a + op?.toList.countP (Operation.isRead a) := by
  cases op? with
  | none => rfl
  | some op =>
    cases op with
    | read b => simp [enter, get_count, Operation.isRead, List.countP_cons]
    | write b v => simp [enter, Operation.isRead]

theorem writes_enter (a : UInt32) :
    (r.enter op? command?).writes.get a =
      r.writes.get a + op?.toList.countP (Operation.isWrite a) := by
  cases op? with
  | none => rfl
  | some op =>
    cases op with
    | read b => simp [enter, Operation.isWrite]
    | write b v => simp [enter, get_count, Operation.isWrite, List.countP_cons]

/-- Each access is entered once. -/
theorem total_enter :
    (r.enter op? command?).reads.total + (r.enter op? command?).writes.total =
      r.reads.total + r.writes.total + op?.toList.length := by
  cases op? with
  | none => rfl
  | some op =>
    cases op with
    | read b =>
      simp only [enter, Tally.total_count, Option.toList_some, List.length_singleton]
      omega
    | write b v =>
      simp only [enter, Tally.total_count, Option.toList_some, List.length_singleton]
      omega

/-- Each command is entered behind those before it. -/
theorem commands_enter {η : Type} (w : Window) (x : Moment η) :
    (r.enter (x.attempt? w) (x.issued? w)).commands = r.commands ++ (x.issued? w).toList := by
  unfold Moment.issued?
  cases x.attempt? w with
  | none => exact (List.append_nil _).symm
  | some op =>
    cases op with
    | read a => exact (List.append_nil _).symm
    | write a v => rfl

end Record

/-- The record holds just these accesses and commands. -/
structure Record.Holds (r : Record) (ops : List Operation) (commands : List Command) : Prop where
  reads : ∀ a, r.reads.get a = ops.countP (Operation.isRead a)
  writes : ∀ a, r.writes.get a = ops.countP (Operation.isWrite a)
  total : r.reads.total + r.writes.total = ops.length
  commands : r.commands = commands

section Telling

variable {η : Type}

/-- The moves since the books were last made to forget. -/
def sinceClear (log : List (Moment η)) : List (Moment η) :=
  log.rtakeWhile fun x => !x.move.isClear

/-- The accesses that were attempted since then, in order. -/
def attempts (w : Window) (log : List (Moment η)) : List Operation :=
  (sinceClear log).filterMap (Moment.attempt? w)

/-- The commands that were issued since then, in order. -/
def issued (w : Window) (log : List (Moment η)) : List Command :=
  (sinceClear log).filterMap (Moment.issued? w)

/-- The machine is as the moves tell that were made on it, and its books are exact. -/
structure Exact (w : Window) (log : List (Moment η)) (world : World η) : Prop where
  /-- The selected address is the one that was selected last, -/
  index : world.bridge.index = (latest? (fun x => x.move.selected? w) log).getD 0
  /-- the mailboxes are those that were attached, in order, -/
  blocks : world.chip.blocks = log.filterMap fun x => x.move.attached?
  /-- and what faults was made to fault and has not been healed since. -/
  readFaults : ∀ a, a ∈ world.chip.faultyReads ↔
    (latest? (fun x => x.move.readFault? a) log).getD false = true
  writeFaults : ∀ a, a ∈ world.chip.faultyWrites ↔
    (latest? (fun x => x.move.writeFault? a) log).getD false = true
  /-- Every attempted read and write is counted at its address, -/
  reads : ∀ a, world.chip.reads.get a = (attempts w log).countP (Operation.isRead a)
  writes : ∀ a, world.chip.writes.get a = (attempts w log).countP (Operation.isWrite a)
  /-- all of them together are counted once, -/
  total : world.chip.totalAccesses = (attempts w log).length
  /-- and the record holds the issued commands and no others. -/
  commands : world.chip.commands = issued w log

variable {w : Window} {log : List (Moment η)} {world world' : World η} {x : Moment η}

theorem sinceClear_concat (log : List (Moment η)) (x : Moment η) :
    sinceClear (log ++ [x]) = if x.move.isClear then [] else sinceClear log ++ [x] := by
  rw [sinceClear, List.rtakeWhile_concat]
  cases x.move.isClear <;> rfl

/-- Nothing was done to a new machine. -/
theorem exact_new (hbridge : world.bridge = ⟨w, 0⟩) (hchip : world.chip = {}) :
    Exact w [] world where
  index := by rw [hbridge]; rfl
  blocks := by rw [hchip]; rfl
  readFaults a := by simp [hchip, latest?]
  writeFaults a := by simp [hchip, latest?]
  reads a := by rw [hchip]; rfl
  writes a := by rw [hchip]; rfl
  total := by rw [hchip]; rfl
  commands := by rw [hchip]; rfl

/-- If the record holds what was attempted and issued, it does so after one more move. -/
theorem Record.Holds.concat (h : x.world.chip.record.Holds (attempts w log) (issued w log))
    (hx : Entered w x world') :
    world'.chip.record.Holds (attempts w (log ++ [x])) (issued w (log ++ [x])) := by
  rw [hx.record, attempts, issued, sinceClear_concat]
  cases x.move.isClear with
  | true => exact ⟨fun _ => rfl, fun _ => rfl, rfl, rfl⟩
  | false =>
    simp only [Bool.false_eq_true, if_false, filterMap_concat]
    refine ⟨fun a => ?_, fun a => ?_, ?_, ?_⟩
    · rw [Record.reads_enter, h.reads, List.countP_append]
      rfl
    · rw [Record.writes_enter, h.writes, List.countP_append]
      rfl
    · rw [Record.total_enter, h.total, List.length_append]
      rfl
    · rw [Record.commands_enter, h.commands]
      rfl

theorem getD_or_iff {o o' : Option Bool} {p : Prop} [Decidable p] (h : p ↔ o'.getD false = true) :
    o.getD (decide p) = true ↔ (o.or o').getD false = true := by
  cases o with
  | none => simpa using h
  | some b => rfl

/-- One more move is told, and leaves the books exact. -/
theorem Exact.concat (h : Exact w log x.world) (hx : Entered w x world') :
    Exact w (log ++ [x]) world' := by
  have hbooks : world'.chip.record.Holds _ _ :=
    Record.Holds.concat ⟨h.reads, h.writes, h.total, h.commands⟩ hx
  refine ⟨?_, ?_, fun a => ?_, fun a => ?_, hbooks.reads, hbooks.writes, hbooks.total,
    hbooks.commands⟩
  · rw [hx.index, h.index, latest?_concat, Option.getD_or]
  · rw [hx.blocks, h.blocks, filterMap_concat]
  · rw [hx.readFaults, latest?_concat]
    exact getD_or_iff (h.readFaults a)
  · rw [hx.writeFaults, latest?_concat]
    exact getD_or_iff (h.writeFaults a)

/-- After any moves the books are exact, and so they were at each of them. -/
theorem Exact.meetAll (h : Exact w log world) (hthrough : world.Through w)
    (firmware : Firmware (η × Memory)) (moves : List (Move η)) :
    let met := Simulation.meetAll (Moment.next firmware) world moves
    met.1.map Moment.move = moves ∧ Exact w (log ++ met.1) met.2 ∧
      ∀ front x rest, met.1 = front ++ x :: rest → Exact w (log ++ front) x.world := by
  -- by induction on the moves, behind those that were made before
  induction moves generalizing log world with
  | nil =>
    refine ⟨rfl, ?_, fun front x rest hsplit => ?_⟩
    · show Exact w (log ++ []) world
      rwa [List.append_nil]
    · cases front <;> cases hsplit
  | cons move moves ih =>
    have hmove := entered_make hthrough firmware move
    obtain ⟨hmoves, hafter, hbetween⟩ := ih (h.concat hmove) hmove.through
    rw [List.append_assoc] at hafter
    refine ⟨congrArg (move :: ·) hmoves, hafter, fun front x rest hsplit => ?_⟩
    cases front with
    | nil =>
      obtain ⟨rfl, -⟩ := List.cons_eq_cons.1 hsplit
      rwa [List.append_nil]
    | cons y front =>
      obtain ⟨rfl, hrest⟩ := List.cons_eq_cons.1 hsplit
      have hthere := hbetween front x rest hrest
      rwa [List.append_assoc] at hthere

end Telling

/-! ## §6. Exact books. -/

/-- Whatever is done to a new machine behind a window of two registers, its books are
exact all along.  The tallies hold every access that was attempted through the data
register since they were last cleared, those that fault included, each at its address,
and nothing else that was done; the record of commands holds, in order, each opcode that
was written without a fault to the command register of a mailbox, with the words that the
first such mailbox had in its argument registers.  Which address that is, which
mailboxes there are and what faults is told by the moves before. -/
theorem books_exact {η : Type} (firmware : Firmware (η × Memory)) {w : Window} (hw : w.Proper)
    (world : World η) (hbridge : world.bridge = ⟨w, 0⟩) (hchip : world.chip = {})
    (moves : List (Move η)) :
    let met := meetAll (Moment.next firmware) world moves
    met.1.map Moment.move = moves ∧ Exact w met.1 met.2 ∧
      ∀ front x rest, met.1 = front ++ x :: rest → Exact w front x.world := by
  have hthrough : world.Through w := ⟨by rw [hbridge], hw⟩
  exact (exact_new hbridge hchip).meetAll hthrough firmware moves

namespace Kept

/-- Two mailboxes with one command register. -/
def first : RegisterBlock := ⟨0x10, 0x14, 0x20⟩
def second : RegisterBlock := ⟨0x10, 0x18, 0x40⟩

/-- A new machine. -/
def world : World Unit where
  firmware := ()

/-- Firmware that knows no command. -/
def firmware : Firmware (Unit × Memory) := fun _ _ _ s => (none, s)

/-- An access that is forgotten, a command that is not answered, one that faults, and
accesses that do not count. -/
def moves : List (Move Unit) :=
  [.attach first, .attach second, .poke 0x20 7, .write 0xC4 0x10, .write 0xC8 5, .clear,
    .read 0, .read 0x40, .tune 0x10 (.neverReady true), .write 0xC8 6, .failAll 0x10,
    .write 0xC8 8, .read 0xC8, .peek 0x10]

/-- Of all this three accesses are counted, and one command is recorded. -/
theorem books_exact_kept :
    let chip := (meetAll (Moment.next firmware) world moves).2.chip
    chip.totalAccesses = 3 ∧ chip.reads.get 0x10 = 1 ∧ chip.writes.get 0x10 = 2 ∧
      chip.commands = [⟨0x10, 6, Arguments.first 7⟩] := by
  obtain ⟨-, hexact, -⟩ := books_exact firmware (w := .standard) (by decide) world rfl rfl moves
  refine ⟨hexact.total.trans ?_, (hexact.reads 0x10).trans ?_, (hexact.writes 0x10).trans ?_,
    hexact.commands.trans ?_⟩ <;> decide

end Kept
end Simulation
end ManagementUnit
