/-
  ManagementUnit.Proofs.Simulation.Trace
  ────────────────────────────────
  Programs that run on the simulated machine.

  Between the driver and the simulated management unit lie the window of the
  host bridge and the two registers behind it.  `Trace` leaves them out: it says
  what accesses to the network do to the chip and the firmware.  If the events
  of a run are network accesses at all, then the accesses are a trace, so that
  a theorem about what a program accesses becomes one about what happens to the
  chip.

  Main results:
    * `Traffic.trace`   — the accesses behind a run are a trace of the chip.
    * `Trace.split`     — accesses in a row lead through a state in between.
    * `Chip.eq_of_read`, `Chip.eq_of_write` — what an access leaves alone of the chip.
    * `Trace.faults`    — what cannot be accessed stays the same throughout.
-/
import ManagementUnit.Proofs.History
import ManagementUnit.Proofs.Network.Traffic
import ManagementUnit.Simulation.World

namespace ManagementUnit

/-! ## §1. The window. -/

/-- Index and data are two registers, and neither is the identity of the
bridge. -/
structure Window.Proper (w : Window) : Prop where
  index_ne : w.index ≠ 0
  data_ne : w.data ≠ 0
  data_ne_index : w.data ≠ w.index

instance (w : Window) : Decidable w.Proper :=
  decidable_of_iff (w.index ≠ 0 ∧ w.data ≠ 0 ∧ w.data ≠ w.index)
    ⟨fun ⟨h₁, h₂, h₃⟩ => ⟨h₁, h₂, h₃⟩, fun ⟨h₁, h₂, h₃⟩ => ⟨h₁, h₂, h₃⟩⟩

namespace Simulation

variable {η : Type}

/-- The network of a machine is reached through a given window. -/
structure World.Through (world : World η) (w : Window) : Prop where
  window_eq : world.bridge.window = w
  proper : w.Proper

/-! ## §2. Traces. -/

/-- What an access does to the chip and the firmware, and how it ends. -/
inductive Served {σ : Type} (firmware : Firmware σ) : Chip × σ → Access → Chip × σ → Prop where
  | read {c c' : Chip} {s : σ} {a v : UInt32} (h : c.read a = (some v, c')) :
      Served firmware (c, s) (.read a (.ok v)) (c', s)
  | readFault {c c' : Chip} {s : σ} {a : UInt32} (h : c.read a = (none, c')) :
      Served firmware (c, s) (.read a (.error (.read a))) (c', s)
  | write {c c' : Chip} {s s' : σ} {a v : UInt32} (h : c.write firmware s a v = (some (), c', s')) :
      Served firmware (c, s) (.write a v (.ok ())) (c', s')
  | writeFault {c c' : Chip} {s s' : σ} {a v : UInt32}
      (h : c.write firmware s a v = (none, c', s')) :
      Served firmware (c, s) (.write a v (.error (.write a))) (c', s')

/-- What accesses in a row do to the chip and the firmware. -/
inductive Trace {σ : Type} (firmware : Firmware σ) :
    Chip × σ → List Access → Chip × σ → Prop where
  | nil (u : Chip × σ) : Trace firmware u [] u
  | cons {u v u' : Chip × σ} {x : Access} {as : List Access} :
      Served firmware u x v → Trace firmware v as u' → Trace firmware u (x :: as) u'

namespace World

/-- The chip of a machine and what its firmware acts on. -/
def core (world : World η) : Chip × (η × Memory) := (world.chip, (world.firmware, world.memory))

variable {firmware : Firmware (η × Memory)} {world : World η} {w : Window}

/-- A write to the index register selects an address and does nothing else. -/
theorem Through.select (h : world.Through w) (firmware : Firmware (η × Memory)) (a : UInt32) :
    platform firmware (.writeBridge w.index a) world =
      (.ok (), { world with bridge := { world.bridge with index := a } }) := by
  have hwindow := h.window_eq
  simp [platform, writeBridge, Bridge.write, hwindow]

/-- A read of the data register is a read of the chip at the selected address. -/
theorem Through.readData (h : world.Through w) (firmware : Firmware (η × Memory)) :
    platform firmware (.readBridge w.data) world =
      ((world.chip.read world.bridge.index).1.elim (.error ⟨w.data⟩) .ok,
        { world with chip := (world.chip.read world.bridge.index).2 }) := by
  have hwindow := h.window_eq
  have hdata := h.proper.data_ne
  have hindex := h.proper.data_ne_index
  rcases hread : world.chip.read world.bridge.index with ⟨value?, c⟩
  cases value? <;> simp [platform, Bridge.read, hwindow, hdata, hindex, hread]

theorem Through.writeData (h : world.Through w) (firmware : Firmware (η × Memory)) (v : UInt32) :
    let written := world.chip.write firmware (world.firmware, world.memory) world.bridge.index v
    platform firmware (.writeBridge w.data v) world =
      (written.1.elim (.error ⟨w.data⟩) .ok,
        { world with
          chip := written.2.1, firmware := written.2.2.1, memory := written.2.2.2 }) := by
  have hwindow := h.window_eq
  have hindex := h.proper.data_ne_index
  rcases hwrite : world.chip.write firmware (world.firmware, world.memory) world.bridge.index v
    with ⟨done?, c, state, memory⟩
  cases done? <;> simp [platform, writeBridge, Bridge.write, hwindow, hindex, hwrite]

/-- What the firmware leaves alone of the memory, a configuration write does. -/
theorem memory_writeBridge {α : Type} {f : Memory → α}
    (hfirmware : ∀ command opcode words s, f (firmware command opcode words s).2.2 = f s.2)
    (w : World η) (offset : UInt16) (value : UInt32) :
    f (w.writeBridge firmware offset value).2.memory = f w.memory := by
  have hwrite : ∀ (c : Chip) (s : η × Memory) (a v : UInt32),
      f (c.write firmware s a v).2.2.2 = f s.2 := by
    intro c s a v
    unfold Chip.write
    dsimp only
    repeat' split
    all_goals first
      | rfl
      | unfold Chip.runCommand
        dsimp only
        split
        · rfl
        · exact hfirmware _ _ _ _
  unfold writeBridge Bridge.write
  dsimp only
  by_cases hindex : offset = w.bridge.window.index
  · rw [if_pos hindex]
  · rw [if_neg hindex]
    by_cases hdata : offset = w.bridge.window.data
    · rw [if_pos hdata]
      have hkept := hwrite w.chip (w.firmware, w.memory) w.bridge.index value
      rcases hstored : w.chip.write firmware (w.firmware, w.memory) w.bridge.index value
        with ⟨done?, chip, state, memory⟩
      rw [hstored] at hkept
      cases done? <;> exact hkept
    · rw [if_neg hdata]

/-- Selecting an address and reading the data register is a read of the chip. -/
theorem Through.answersRead (h : world.Through w) {world' : World η} {a : UInt32}
    {reply : Except BridgeFault UInt32} {es : List Event}
    (hes : Answers (platform firmware) world
      (⟨.writeBridge w.index a, .ok ()⟩ :: ⟨.readBridge w.data, reply⟩ :: es) world') :
    ∃ mid : World η, mid.Through w ∧ Answers (platform firmware) mid es world' ∧
      (∀ v, reply = .ok v → Served firmware world.core (.read a (.ok v)) mid.core) ∧
      ∀ f, reply = .error f → Served firmware world.core (.read a (.error (.read a))) mid.core := by
  obtain ⟨-, hes⟩ := hes.uncons
  rw [h.select firmware a] at hes
  obtain ⟨hreply, hes⟩ := hes.uncons
  have hselected : World.Through { world with bridge := { world.bridge with index := a } } w :=
    ⟨h.window_eq, h.proper⟩
  simp only [hselected.readData firmware] at hreply hes
  refine ⟨_, ?_, hes, ?_⟩
  · exact ⟨h.window_eq, h.proper⟩
  rcases hread : world.chip.read a with ⟨value?, c⟩
  rw [hread] at hreply
  cases value? with
  | none =>
    refine ⟨fun v hv => ?_, fun f _ => ?_⟩
    · cases hreply.symm.trans hv
    · exact .readFault hread
  | some u =>
    refine ⟨fun v hv => ?_, fun f hf => ?_⟩
    · cases hreply.symm.trans hv
      exact .read hread
    · cases hreply.symm.trans hf

theorem Through.answersWrite (h : world.Through w) {world' : World η} {a v : UInt32}
    {reply : Except BridgeFault Unit} {es : List Event}
    (hes : Answers (platform firmware) world
      (⟨.writeBridge w.index a, .ok ()⟩ :: ⟨.writeBridge w.data v, reply⟩ :: es) world') :
    ∃ mid : World η, mid.Through w ∧ Answers (platform firmware) mid es world' ∧
      (reply = .ok () → Served firmware world.core (.write a v (.ok ())) mid.core) ∧
      ∀ f, reply = .error f →
        Served firmware world.core (.write a v (.error (.write a))) mid.core := by
  obtain ⟨-, hes⟩ := hes.uncons
  rw [h.select firmware a] at hes
  obtain ⟨hreply, hes⟩ := hes.uncons
  have hselected : World.Through { world with bridge := { world.bridge with index := a } } w :=
    ⟨h.window_eq, h.proper⟩
  simp only [hselected.writeData firmware] at hreply hes
  refine ⟨_, ?_, hes, ?_⟩
  · exact ⟨h.window_eq, h.proper⟩
  rcases hwrite : world.chip.write firmware (world.firmware, world.memory) a v
    with ⟨done?, c, state, memory⟩
  rw [hwrite] at hreply
  cases done? with
  | none =>
    refine ⟨fun hv => ?_, fun f _ => ?_⟩
    · cases hreply.symm.trans hv
    · exact .writeFault hwrite
  | some _ =>
    refine ⟨fun _ => ?_, fun f hf => ?_⟩
    · exact .write hwrite
    · cases hreply.symm.trans hf

/-- An access as the bridge sees it is served by the chip. -/
theorem Through.served (h : world.Through w) {world' : World η} {x : Access} {seen es : List Event}
    (hx : x.Seen w seen) (hes : Answers (platform firmware) world (seen ++ es) world') :
    ∃ mid : World η, Served firmware world.core x mid.core ∧ mid.Through w ∧
      Answers (platform firmware) mid es world' := by
  -- a selection never fails here, so an access that was not selected is not among the events
  have hselect : ∀ {a f fs}, ¬ Answers (platform firmware) world
      (⟨.writeBridge w.index a, .error f⟩ :: fs) world' := by
    intro a f fs hes
    have hreply := hes.uncons.1
    rw [h.select firmware a] at hreply
    cases hreply
  cases hx with
  | readUnselected a f => exact absurd hes hselect
  | writeUnselected a v f => exact absurd hes hselect
  | readFault a f =>
    obtain ⟨mid, hmid, hes, -, hserved⟩ := h.answersRead hes
    exact ⟨mid, hserved f rfl, hmid, hes⟩
  | read a v =>
    obtain ⟨mid, hmid, hes, hserved, -⟩ := h.answersRead hes
    exact ⟨mid, hserved v rfl, hmid, hes⟩
  | writeFault a v f =>
    obtain ⟨mid, hmid, hes, -, hserved⟩ := h.answersWrite hes
    exact ⟨mid, hserved f rfl, hmid, hes⟩
  | write a v =>
    obtain ⟨mid, hmid, hes, hserved, -⟩ := h.answersWrite hes
    exact ⟨mid, hserved rfl, hmid, hes⟩

end World
end Simulation

/-- The accesses behind what a machine answers are a trace of its chip. -/
theorem Traffic.trace {η : Type} {firmware : Simulation.Firmware (η × Simulation.Memory)}
    {w : Window} {es : List Event} {as : List Access} {world world' : Simulation.World η}
    (has : Traffic w es as) (h : world.Through w)
    (hes : Answers (Simulation.World.platform firmware) world es world') :
    Simulation.Trace firmware world.core as world'.core ∧ world'.Through w := by
  induction has generalizing world with
  | nil =>
    cases hes
    exact ⟨.nil _, h⟩
  | note d _ ih =>
    obtain ⟨-, hes⟩ := hes.uncons
    -- a note shows on the machine, but not on the chip
    have hnoted : Simulation.World.Through { world with notes := d :: world.notes } w :=
      ⟨h.window_eq, h.proper⟩
    have hrest := ih hnoted hes
    exact hrest
  | access hx _ ih =>
    obtain ⟨mid, hserved, hmid, hes⟩ := h.served hx hes
    obtain ⟨htrace, hthrough⟩ := ih hmid hes
    exact ⟨.cons hserved htrace, hthrough⟩

namespace Simulation

/-! ## §3. Traces in a row. -/

namespace Trace

variable {σ : Type} {firmware : Firmware σ} {u u' : Chip × σ} {as bs : List Access}

theorem split (h : Trace firmware u (as ++ bs) u') :
    ∃ v, Trace firmware u as v ∧ Trace firmware v bs u' := by
  induction as generalizing u with
  | nil => exact ⟨u, .nil u, h⟩
  | cons x as ih =>
    cases h with
    | cons hx h =>
      obtain ⟨v, has, hbs⟩ := ih h
      exact ⟨v, .cons hx has, hbs⟩

theorem single {x : Access} (h : Trace firmware u [x] u') : Served firmware u x u' := by
  cases h with
  | cons hx h =>
    cases h
    exact hx

end Trace

/-! ## §4. What an access leaves alone. -/

namespace Chip

variable {σ : Type} {c c' : Chip}

/-- A read changes nothing but its tally and how long a mailbox stalls. -/
theorem eq_of_read {a : UInt32} {value? : Option UInt32} (h : c.read a = (value?, c')) :
    c' = { c.countRead a with mailboxes := c'.mailboxes } := by
  unfold read at h
  dsimp only at h
  repeat' split at h
  all_goals
    cases h
    rfl

/-- Storing words changes nothing but registers. -/
theorem storeWords_eq (c : Chip) (b : RegisterBlock) (words : Arguments) :
    c.storeWords b words = { c with registers := (c.storeWords b words).registers } := by
  unfold storeWords
  induction Arguments.positions generalizing c with
  | nil => rfl
  | cons i rest ih => exact ih (c.poke (b.argument i.val) (words.get i))

/-- A command is recorded with the words that are in the argument registers, and changes
nothing but registers and how long a mailbox stalls. -/
theorem runCommand_eq (firmware : Firmware σ) (c : Chip) (s : σ) (i : Nat) (m : Mailbox)
    (opcode : UInt32) :
    let c' := (c.runCommand firmware s i m opcode).1
    c' = { c with
      registers := c'.registers
      mailboxes := c'.mailboxes
      commands := c.commands ++ [⟨m.registers.command, opcode, c.argumentWords m.registers⟩] } := by
  unfold runCommand
  dsimp only
  split
  · rfl
  · rw [storeWords_eq]
    rfl

/-- A write changes nothing but its tally, and what a command does. -/
theorem eq_of_write {firmware : Firmware σ} {s s' : σ} {a v : UInt32} {done? : Option Unit}
    (h : c.write firmware s a v = (done?, c', s')) :
    c' = { c.countWrite a with
      registers := c'.registers
      mailboxes := c'.mailboxes
      commands := c'.commands } := by
  unfold write at h
  dsimp only at h
  split at h
  · cases h
    rfl
  · split at h
    · cases h
      rfl
    · split at h
      · cases h
        rfl
      · have hran : _ = c' := congrArg Prod.fst (Prod.mk.inj h).2
        rw [← hran, runCommand_eq]
        rfl

theorem read_faulty {a : UInt32} (h : a ∈ c.faultyReads) : c.read a = (none, c.countRead a) :=
  if_pos h

theorem write_faulty (firmware : Firmware σ) (s : σ) {a : UInt32} (h : a ∈ c.faultyWrites)
    (v : UInt32) : c.write firmware s a v = (none, c.countWrite a, s) :=
  if_pos h

/-- A read faults exactly where it is said to, and then it is counted and does nothing. -/
theorem read_eq_none_iff {a : UInt32} :
    c.read a = (none, c') ↔ a ∈ c.faultyReads ∧ c' = c.countRead a := by
  constructor
  · intro h
    by_cases ha : a ∈ c.faultyReads
    · rw [read_faulty ha] at h
      cases h
      exact ⟨ha, rfl⟩
    · unfold read at h
      rw [if_neg ha] at h
      repeat' split at h
      all_goals cases h
  · rintro ⟨ha, rfl⟩
    exact read_faulty ha

theorem write_eq_none_iff {firmware : Firmware σ} {s s' : σ} {a v : UInt32} :
    c.write firmware s a v = (none, c', s') ↔
      a ∈ c.faultyWrites ∧ c' = c.countWrite a ∧ s' = s := by
  constructor
  · intro h
    by_cases ha : a ∈ c.faultyWrites
    · rw [write_faulty firmware s ha] at h
      cases h
      exact ⟨ha, rfl, rfl⟩
    · unfold write at h
      rw [if_neg ha] at h
      repeat' split at h
      all_goals cases h
  · rintro ⟨ha, rfl, rfl⟩
    exact write_faulty firmware s' ha v

theorem not_faulty_of_read {a v : UInt32} (h : c.read a = (some v, c')) : a ∉ c.faultyReads := by
  intro ha
  rw [read_faulty ha] at h
  cases h

theorem not_faulty_of_write {firmware : Firmware σ} {s s' : σ} {a v : UInt32}
    (h : c.write firmware s a v = (some (), c', s')) : a ∉ c.faultyWrites := by
  intro ha
  rw [write_faulty firmware s ha] at h
  cases h

end Chip

namespace Served

variable {σ : Type} {firmware : Firmware σ} {u u' : Chip × σ}

/-- What cannot be accessed stays the same. -/
theorem faults {x : Access} (h : Served firmware u x u') :
    u'.1.faultyReads = u.1.faultyReads ∧ u'.1.faultyWrites = u.1.faultyWrites := by
  cases h with
  | read h | readFault h =>
    rw [Chip.eq_of_read h]
    exact ⟨rfl, rfl⟩
  | write h | writeFault h =>
    rw [Chip.eq_of_write h]
    exact ⟨rfl, rfl⟩

/-- A read faults exactly where it is said to. -/
theorem read_fault {a : UInt32} {outcome : Except NetworkFault UInt32}
    (h : Served firmware u (.read a outcome) u') :
    (a ∈ u.1.faultyReads → outcome = .error (.read a)) ∧
      (a ∉ u.1.faultyReads → ∃ v, outcome = .ok v) := by
  cases h with
  | read h => exact ⟨fun ha => absurd ha (Chip.not_faulty_of_read h), fun _ => ⟨_, rfl⟩⟩
  | readFault h => exact ⟨fun _ => rfl, fun ha => absurd (Chip.read_eq_none_iff.1 h).1 ha⟩

theorem write_fault {a v : UInt32} {outcome : Except NetworkFault Unit}
    (h : Served firmware u (.write a v outcome) u') :
    (a ∈ u.1.faultyWrites → outcome = .error (.write a)) ∧
      (a ∉ u.1.faultyWrites → outcome = .ok ()) := by
  cases h with
  | write h => exact ⟨fun ha => absurd ha (Chip.not_faulty_of_write h), fun _ => rfl⟩
  | writeFault h => exact ⟨fun _ => rfl, fun ha => absurd (Chip.write_eq_none_iff.1 h).1 ha⟩

end Served

namespace Trace

variable {σ : Type} {firmware : Firmware σ} {u u' : Chip × σ} {as : List Access}

/-- What cannot be accessed stays the same throughout. -/
theorem faults (h : Trace firmware u as u') :
    u'.1.faultyReads = u.1.faultyReads ∧ u'.1.faultyWrites = u.1.faultyWrites := by
  induction h with
  | nil => exact ⟨rfl, rfl⟩
  | cons hx _ ih =>
    obtain ⟨hreads, hwrites⟩ := hx.faults
    rw [← hreads, ← hwrites]
    exact ih

end Trace
end Simulation
end ManagementUnit
