/-
  ManagementUnit.Proofs.Driver.Settings
  ────────────────────────────────
  What is chosen about the driver, and where it ends up.

  Choices of different kinds do not get in each other's way: of each kind the last
  one counts, moved to the nearer end of its range.  What was chosen is passed on
  through several layers; whether it arrives shows on a machine whose power
  management mailbox does not get ready.  There the first transaction of a start
  takes all of its budget, reads one register and nothing else, and the start fails
  over it.

  Main results:
    * `Settings.standard_afterChoices` — the settings that a row of choices comes to.
    * `Course.of_unready`     — a transaction on a mailbox that does not get ready
      is the first poll, and takes the whole budget.
    * `choices_reach_mailbox` — the settings, and the reads that they come to.
-/
import ManagementUnit.Proofs.Driver.Gates
import ManagementUnit.Proofs.Processor.Identity
import ManagementUnit.Proofs.Simulation.Budget
import Mathlib.Data.List.Induction

namespace ManagementUnit

/-! ## §1. Choices in a row. -/

namespace Settings

namespace Choice

/-- The retry budget that is chosen. -/
def budget? : Choice → Option Nat
  | budget n => some n
  | interval _ | window _ => none

/-- How long a transfer is chosen to stay recent. -/
def interval? : Choice → Option Duration
  | interval d => some d
  | budget _ | window _ => none

/-- The window that is chosen. -/
def window? : Choice → Option Window
  | window w => some w
  | budget _ | interval _ => none

end Choice

theorem afterChoices_concat (s : Settings) (choices : List Choice) (c : Choice) :
    s.afterChoices (choices ++ [c]) = (s.afterChoices choices).choose c :=
  List.foldl_append

/-- The settings in which of each kind of choice just the last one counts. -/
def ofLast (choices : List Choice) : Settings where
  budget := ((latest? Choice.budget? choices).map fun n => max 500 (min n 32768)).getD 8192
  interval := ((latest? Choice.interval? choices).map fun d =>
    ⟨max 1000000 (min d.nanos 60000000000)⟩).getD ⟨1000000⟩
  window := (latest? Choice.window? choices).getD ⟨0xC4, 0xC8⟩

theorem withBudget_budget (s : Settings) (n : Nat) :
    (s.withBudget n).budget = max 500 (min n 32768) := by
  unfold withBudget budgetMin budgetMax
  dsimp only
  by_cases hlow : n < 500
  · rw [if_pos hlow]
    omega
  · rw [if_neg hlow]
    by_cases hhigh : 32768 < n
    · rw [if_pos hhigh]
      omega
    · rw [if_neg hhigh]
      omega

theorem withInterval_interval (s : Settings) (d : Duration) :
    (s.withInterval d).interval = ⟨max 1000000 (min d.nanos 60000000000)⟩ := by
  have hnanos : (s.withInterval d).interval.nanos = max 1000000 (min d.nanos 60000000000) := by
    show (d.clamp ⟨1000000⟩ ⟨60000000000⟩).nanos = _
    unfold Duration.clamp
    by_cases hlow : d.nanos < 1000000
    · rw [if_pos (show d < ⟨1000000⟩ from hlow)]
      dsimp only
      omega
    · rw [if_neg (show ¬ d < ⟨1000000⟩ from hlow)]
      by_cases hhigh : 60000000000 < d.nanos
      · rw [if_pos (show ⟨60000000000⟩ < d from hhigh)]
        dsimp only
        omega
      · rw [if_neg (show ¬ ⟨60000000000⟩ < d from hhigh)]
        omega
  exact congrArg Duration.mk hnanos

/-- Choices that are made in a row come to those settings, however the kinds are mixed. -/
theorem standard_afterChoices (choices : List Choice) :
    standard.afterChoices choices = ofLast choices := by
  -- by induction from the last choice, which is the one that counts
  induction choices using List.reverseRecOn with
  | nil => rfl
  | append_singleton choices c ih =>
    rw [afterChoices_concat, ih]
    cases c with
    | budget n =>
      simp only [ofLast, latest?_concat]
      exact congrArg (Settings.mk · _ _) (withBudget_budget (ofLast choices) n)
    | interval d =>
      simp only [ofLast, latest?_concat]
      exact congrArg (Settings.mk _ · _) (withInterval_interval (ofLast choices) d)
    | window w =>
      simp only [ofLast, latest?_concat]
      rfl

end Settings

/-! ## §2. The mailbox of a named processor. -/

/-- A processor that has a name has a generation. -/
theorem Codename.ne_undefined_of_decode {family model : Nat} {package : Package} {c : Codename}
    (h : decode family model package = .ok c) : c ≠ undefined := by
  rintro rfl
  unfold decode at h
  dsimp only at h
  split at h
  · cases h
  · cases h
  · next hfound =>
    cases h
    split at hfound
    · have hmodel := Option.some.inj hfound
      unfold ofModel17h? at hmodel
      repeat' split at hmodel
      all_goals cases hmodel
    · split at hfound
      · have hmodel := Option.some.inj hfound
        unfold ofModel19h? at hmodel
        split at hmodel <;> cases hmodel
      · cases hfound

/-- Every generation has a power management mailbox. -/
theorem Codename.registers_mp1 {c : Codename} (h : c ≠ undefined) :
    ∃ b, c.registers? .mp1 = some b := by
  cases c with
  | undefined => exact absurd rfl h
  | _ => exact ⟨_, rfl⟩

/-- So a processor that is named has one. -/
theorem Processor.registers_mp1 {σ : Type} {platform : Platform σ} {s : σ} {p : Processor}
    (h : (Processor.query.run platform s).1 = .ok p) :
    ∃ b, p.codename.registers? .mp1 = some b := by
  rw [Processor.run_query, Signature.processor] at h
  generalize (Signature.query.run platform s).1 = x at h
  cases hdecode : Codename.decode x.version.family x.version.model x.package.package with
  | error e =>
    rw [hdecode] at h
    cases h
  | ok c =>
    rw [hdecode] at h
    cases h
    exact Codename.registers_mp1 (Codename.ne_undefined_of_decode hdecode)

/-! ## §3. A register that stays zero. -/

/-- From the state `s` on, however often the word at `a` is read and nothing else is
accessed, each read gives zero. -/
def StaysZero {σ : Type} (platform : Platform σ) (w : Window) (a : UInt32) (s : σ) : Prop :=
  ∀ es as s', Answers platform s es s' → Traffic w es as → (∀ x ∈ as, x.isReadOf a = true) →
    ∀ x ∈ as, x = .read a (.ok 0)

section Unready

variable {b : RegisterBlock} {opcode : UInt32} {sent : Arguments} {budget : Nat}
  {as : List Access} {r : Except Failure Arguments}

theorem RegisterBlock.isReadOf_of_mem_zeroReads {n : Nat} :
    ∀ x ∈ b.zeroReads n, x.isReadOf b.response = true := by
  intro x hx
  rw [(List.mem_replicate.1 hx).2]
  exact beq_self_eq_true _

theorem RegisterBlock.isReadOf_of_mem_poll {n : Nat} {v : UInt32} :
    ∀ x ∈ b.poll n v, x.isReadOf b.response = true := by
  intro x hx
  rcases List.mem_append.1 hx with hx | hx
  · exact isReadOf_of_mem_zeroReads x hx
  · rw [List.mem_singleton.1 hx]
    exact beq_self_eq_true _

/-- If the reads that a transaction begins with all give zero, then they are all there is
to it, and they take the whole budget. -/
theorem Course.of_unready (h : Course b opcode sent budget as r)
    (hzero : ∀ front rest, as = front ++ rest → (∀ x ∈ front, x.isReadOf b.response = true) →
      ∀ x ∈ front, x = .read b.response (.ok 0)) :
    as = b.zeroReads budget ∧ r = .error .timeout := by
  -- a poll that ended saw a value that is not zero
  have hpoll : ∀ {n v}, v ≠ 0 → ¬ b.poll n v <+: as := by
    rintro n v hv ⟨rest, heq⟩
    have hlast := hzero _ rest heq.symm RegisterBlock.isReadOf_of_mem_poll
      (.read b.response (.ok v)) (List.mem_append_right _ List.mem_cons_self)
    cases hlast
    exact hv rfl
  have hlonger : ∀ {n v} {bs cs : List Access}, b.poll n v <+: b.poll n v ++ bs ++ cs :=
    (List.prefix_append ..).trans (List.prefix_append ..)
  cases h with
  | faulted f hdue =>
    cases hdue with
    | gate n =>
      have hfault := hzero _ [] (List.append_nil _).symm
        (List.forall_mem_append.2 ⟨RegisterBlock.isReadOf_of_mem_zeroReads,
          by simp [Operation.failed, Access.isReadOf]⟩)
        (.read b.response (.error f)) (List.mem_append_right _ List.mem_cons_self)
      cases hfault
    | request hv hsplit =>
      exact (hpoll hv hlonger).elim
    | completion k hv =>
      exact (hpoll hv (hlonger.trans (List.prefix_append ..))).elim
  | exhausted hdue hspent =>
    generalize hop : Operation.read b.response = op at hdue
    cases hdue with
    | gate n =>
      rw [readCount_zeroReads] at hspent
      rw [hspent]
      exact ⟨rfl, rfl⟩
    | request => cases hop
    | completion k hv =>
      exact (hpoll hv hlonger).elim
  | rejected hv => exact (hpoll hv hlonger).elim
  | answered hv =>
    exact (hpoll hv (hlonger.trans (List.prefix_append ..))).elim

end Unready

/-! ## §4. Starting on a mailbox that does not get ready. -/

section Start

open Driver

variable {σ : Type} {platform : Platform σ} {s s' : σ} {settings : Settings} {p : Processor}
  {b : RegisterBlock}

/-- The version query of a mailbox that does not get ready reads its response register
for as long as the budget lasts. -/
theorem version_of_staysZero {es rest : List Event} {r : Except Failure Version}
    (hb : p.codename.registers? .mp1 = some b)
    (hzero : StaysZero platform settings.window b.response s)
    (hversion : ((mailboxesOf settings p).version .mp1).run.Reaches es r)
    (hes : Answers platform s (⟨.note (.mailboxesBound p.codename), ()⟩ :: (es ++ rest)) s') :
    Traffic settings.window es (b.zeroReads settings.budget) ∧ r = .error .timeout := by
  obtain ⟨answer, hanswer, rfl⟩ := Mailboxes.reaches_version hversion
  obtain ⟨as, htraffic, hcourse, -⟩ :=
    conducts_execute (m := mailboxesOf settings p) hb _ _ es answer hanswer
  have hunready := hcourse.of_unready ?_
  · obtain ⟨rfl, rfl⟩ := hunready
    exact ⟨htraffic, rfl⟩
  -- the reads that it begins with are made where the register stays zero
  rintro front others rfl hreads
  obtain ⟨fs, gs, rfl, hfront, -⟩ := htraffic.split
  rw [List.append_assoc, ← List.cons_append] at hes
  obtain ⟨_, hfs, -⟩ := Answers.append_iff.1 hes
  exact hzero _ _ _ hfs (.note _ hfront) hreads

/-- A start on a machine whose power management mailbox does not get ready: the bridge is
asked for its identity, then the response register is read for as long as the budget
lasts, and the start times out. -/
theorem start_of_staysZero {word : UInt32} (hnamed : (Processor.query.run platform s).1 = .ok p)
    (hword : (bridgeAnswer platform s).1 = .ok word) (hknown : NamesBridge word)
    (hb : p.codename.registers? .mp1 = some b)
    (hzero : StaysZero platform settings.window b.response (bridgeAnswer platform s).2) :
    ((start settings).run.run platform s).1 = .error .timeout ∧
      ∃ front rest, (start settings).run.journal platform s = front ++ rest ∧
        accesses front = [⟨.readBridge 0, .ok word⟩] ∧
        Traffic settings.window rest (b.zeroReads settings.budget) ∧
        Answers platform (bridgeAnswer platform s).2 rest
          ((start settings).run.run platform s).2 := by
  have hstart := reaches_start (Program.reaches_journal platform (start settings).run s)
  have hanswers : Answers platform s _ _ := .ofJournal (start settings).run s
  generalize (start settings).run.journal platform s = es at hstart hanswers ⊢
  generalize ((start settings).run.run platform s).1 = r at hstart ⊢
  generalize ((start settings).run.run platform s).2 = s' at hanswers ⊢
  cases hstart with
  | unidentified hquery =>
    rw [← List.append_nil es] at hanswers
    obtain ⟨-, hunnamed, -⟩ := hquery.answered hanswers
    cases hnamed.symm.trans hunnamed
  | unreadable hquery =>
    obtain ⟨-, hreply, -⟩ := answered_bridge hquery hanswers
    cases hword.symm.trans hreply
  | unknown hquery hunknown =>
    obtain ⟨-, hreply, -⟩ := answered_bridge hquery hanswers
    cases hword.symm.trans hreply
    rw [(BridgeId.isKnown_ofWord word).2 hknown] at hunknown
    cases hunknown
  | @unversioned es fs p' word' f hquery _ hversion =>
    obtain ⟨hnamed', hreply, hrest⟩ := answered_bridge hquery hanswers
    cases hnamed.symm.trans hnamed'
    cases hword.symm.trans hreply
    obtain ⟨htraffic, heq⟩ := version_of_staysZero hb hzero hversion hrest
    cases heq
    refine ⟨rfl, es ++ [⟨.readBridge 0, .ok word⟩], _, ?_, ?_, ?_, hrest⟩
    · rw [List.append_assoc]
      rfl
    · rw [accesses_append, (quiet_of_query hquery).1]
      rfl
    · have hnoted := htraffic.append (.ofNote (.versionFailed .timeout))
      rw [List.append_nil] at hnoted
      exact .note _ hnoted
  | started hquery _ hversion =>
    obtain ⟨hnamed', hreply, hrest⟩ := answered_bridge hquery hanswers
    cases hnamed.symm.trans hnamed'
    obtain ⟨-, heq⟩ := version_of_staysZero hb hzero hversion hrest
    cases heq

end Start

/-! ## §5. A simulated mailbox that does not get ready. -/

namespace Simulation

/-- Reads of `a` do not fault, and the mailbox whose response register lies there never
gets ready. -/
structure Chip.Unready (c : Chip) (a : UInt32) : Prop where
  works : a ∉ c.faultyReads
  never : ∃ mb, c.mailboxes.find? (fun m => m.registers.response == a) = some mb ∧
    mb.neverReady = true

/-- Its response register reads as zero, and that it was read is all that is left of it. -/
theorem Chip.Unready.read {c : Chip} {a : UInt32} (h : c.Unready a) :
    c.read a = (some 0, c.countRead a) := by
  obtain ⟨mb, hfound, hnever⟩ := h.never
  obtain ⟨i, hindex, hget⟩ := findIdx?_of_find? hfound
  unfold Chip.read
  dsimp only
  rw [if_neg h.works, hindex]
  dsimp only
  rw [hget]
  exact if_pos hnever

/-- So it is with reads in a row. -/
theorem Trace.unready {σ : Type} {firmware : Firmware σ} {c : Chip} {s : σ} {u' : Chip × σ}
    {a : UInt32} {as : List Access} (hc : c.Unready a) (has : ∀ x ∈ as, x.isReadOf a = true)
    (h : Trace firmware (c, s) as u') :
    (∀ x ∈ as, x = .read a (.ok 0)) ∧ u' = ({ c with reads := u'.1.reads }, s) := by
  induction as generalizing c with
  | nil =>
    cases h
    exact ⟨nofun, rfl⟩
  | cons x as ih =>
    obtain ⟨hx, hrest⟩ := List.forall_mem_cons.1 has
    cases x with
    | write => cases hx
    | read a' outcome =>
      have ha : a' = a := eq_of_beq hx
      subst ha
      cases h with
      | cons hx h =>
        cases hx with
        | readFault hread => cases hc.read.symm.trans hread
        | read hread =>
          cases hc.read.symm.trans hread
          have hstill : (c.countRead a').Unready a' := ⟨hc.works, hc.never⟩
          obtain ⟨hzeros, hafter⟩ := ih hstill hrest h
          exact ⟨List.forall_mem_cons.2 ⟨rfl, hzeros⟩, hafter⟩

theorem readCount_zeroReads_of (b : RegisterBlock) (a : UInt32) (n : Nat) :
    readCount a (b.zeroReads n) = if a = b.response then n else 0 := by
  by_cases ha : a = b.response
  · rw [if_pos ha, ha]
    exact readCount_zeroReads n
  · have hne : ¬ b.response = a := fun h => ha h.symm
    rw [if_neg ha]
    simp [readCount, RegisterBlock.zeroReads, Access.isReadOf, List.countP_replicate, hne]

namespace World

open Driver

variable {η : Type} {firmware : Firmware (η × Memory)} {world : World η}

/-- The response register of a mailbox that never gets ready stays zero. -/
theorem staysZero {w : Window} {a : UInt32} (h : world.Through w) (ha : world.chip.Unready a) :
    StaysZero (platform firmware) w a world := by
  intro es as world' hes htraffic hreads
  obtain ⟨htrace, -⟩ := htraffic.trace h hes
  exact (htrace.unready ha hreads).1

/-- A machine has the processor that its signature describes. -/
theorem run_query (firmware : Firmware (η × Memory)) (world : World η) :
    (Processor.query.run (platform firmware) world).1 = world.signature.processor :=
  Processor.run_query (platform firmware) world

/-- When the processor has been named, the bridge tells its word, and the machine differs
in what was noted only. -/
theorem bridgeAnswer_eq (firmware : Firmware (η × Memory)) (world : World η) :
    ∃ notes, bridgeAnswer (platform firmware) world =
      (.ok world.chip.bridgeWord, { world with notes }) := by
  have hanswers : Answers (platform firmware) world _ _ := .ofJournal Processor.query world
  have hnaming := naming_of_query
    (Program.reaches_journal (platform firmware) Processor.query world)
  obtain ⟨notes, hafter⟩ := hanswers.invariant (P := fun w => ∃ notes, w = { world with notes })
    (by
      rintro ⟨request, reply⟩ he w ⟨notes, rfl⟩
      cases Request.naming_of_isNaming (hnaming _ he) with
      | identify => exact ⟨notes, rfl⟩
      | signatureRead | processorUnknown | processorNamed => exact ⟨_ :: notes, rfl⟩)
    ⟨world.notes, rfl⟩
  refine ⟨notes, ?_⟩
  unfold bridgeAnswer
  rw [hafter]
  rfl

end World
end Simulation

/-! ## §6. From the choices to the reads. -/

open Driver Simulation

/-- The last choice of each kind counts, within its range.  On any platform that names a
processor and tells the word of a known bridge, but whose power management mailbox does
not get ready, a start with these settings times out; between the question for the
identity of the bridge and the end it makes as many reads of the response register as the
budget says, through the window that was chosen, and no other access.  On a simulated
machine, nothing but the tally of these reads tells afterwards that the driver was
there. -/
theorem choices_reach_mailbox (choices : List Settings.Choice) :
    let settings := Settings.standard.afterChoices choices
    settings = Settings.ofLast choices ∧
    (∀ {σ : Type} (platform : Platform σ) (s : σ) (p : Processor) (word : UInt32),
      (Processor.query.run platform s).1 = .ok p →
      (bridgeAnswer platform s).1 = .ok word → NamesBridge word →
        ∃ b, p.codename.registers? .mp1 = some b ∧
          (StaysZero platform settings.window b.response (bridgeAnswer platform s).2 →
            ((start settings).run.run platform s).1 = .error .timeout ∧
            ∃ front rest, (start settings).run.journal platform s = front ++ rest ∧
              accesses front = [⟨.readBridge 0, .ok word⟩] ∧
              Traffic settings.window rest (b.zeroReads settings.budget))) ∧
    ∀ {η : Type} (firmware : Firmware (η × Memory)) (world : World η) (p : Processor),
      world.signature.processor = .ok p → NamesBridge world.chip.bridgeWord →
      world.Through settings.window →
        ∃ b, p.codename.registers? .mp1 = some b ∧
          (world.chip.Unready b.response →
            let started := (start settings).run.run (World.platform firmware) world
            started.1 = .error .timeout ∧
            started.2.chip = { world.chip with reads := started.2.chip.reads } ∧
            (∀ a, started.2.chip.reads.get a =
              world.chip.reads.get a + if a = b.response then settings.budget else 0) ∧
            started.2.firmware = world.firmware ∧ started.2.memory = world.memory) := by
  intro settings
  refine ⟨Settings.standard_afterChoices choices, ?_, ?_⟩
  · intro σ platform s p word hnamed hword hknown
    obtain ⟨b, hb⟩ := Processor.registers_mp1 hnamed
    refine ⟨b, hb, fun hzero => ?_⟩
    obtain ⟨hresult, front, rest, hjournal, hfront, hrest, -⟩ :=
      start_of_staysZero hnamed hword hknown hb hzero
    exact ⟨hresult, front, rest, hjournal, hfront, hrest⟩
  · intro η firmware world p hprocessor hknown hthrough
    have hnamed := (World.run_query firmware world).trans hprocessor
    obtain ⟨b, hb⟩ := Processor.registers_mp1 hnamed
    obtain ⟨notes, hbridge⟩ := World.bridgeAnswer_eq firmware world
    have hthere : World.Through { world with notes } settings.window :=
      ⟨hthrough.window_eq, hthrough.proper⟩
    refine ⟨b, hb, fun hunready => ?_⟩
    have hzero : StaysZero (World.platform firmware) settings.window b.response
        (bridgeAnswer (World.platform firmware) world).2 := by
      rw [hbridge]
      exact World.staysZero hthere hunready
    obtain ⟨hresult, -, rest, -, -, htraffic, hrest⟩ :=
      start_of_staysZero hnamed (congrArg Prod.fst hbridge) hknown hb hzero
    rw [hbridge] at hrest
    obtain ⟨htrace, -⟩ := htraffic.trace hthere hrest
    obtain ⟨-, hcore⟩ := htrace.unready hunready fun x hx =>
      RegisterBlock.isReadOf_of_mem_zeroReads x hx
    refine ⟨hresult, congrArg Prod.fst hcore, fun a => ?_, ?_, ?_⟩
    · exact (htrace.reads_get a).trans (congrArg (_ + ·) (readCount_zeroReads_of b a _))
    · exact congrArg (fun u => u.2.1) hcore
    · exact congrArg (fun u => u.2.2) hcore

namespace Unready

/-- Firmware that is never asked. -/
def firmware : Firmware (Unit × Memory) := fun _ _ _ s => (none, s)

/-- A machine whose power management mailbox never gets ready, behind a window at lower
offsets. -/
def world : World Unit where
  signature := Signature.encode 0x17 0x71 0 2
  bridge := ⟨.low, 0⟩
  chip := { mailboxes := [{ registers := Revision.v11.registers, neverReady := true }] }
  firmware := ()

/-- Two budgets and a window, with an interval between them. -/
def choices : List Settings.Choice := [.budget 4000, .window .low, .interval ⟨0⟩, .budget 1]

/-- The last budget is below the range, so the lower end of the range counts: five hundred
reads. -/
theorem choices_reach_mailbox_unready :
    let started := (start (Settings.standard.afterChoices choices)).run.run
      (World.platform firmware) world
    started.1 = .error .timeout ∧ started.2.chip.reads.get 0x03B1057C = 500 ∧
      started.2.chip.writes = .empty ∧ started.2.chip.commands = [] := by
  have hprocessor : world.signature.processor = .ok ⟨0x17, 0x71, 0, .am4, .matisse⟩ := by decide
  have hknown : NamesBridge world.chip.bridgeWord := by
    unfold NamesBridge
    decide
  have hthrough : world.Through (Settings.standard.afterChoices choices).window :=
    ⟨rfl, by decide⟩
  obtain ⟨-, -, hmachine⟩ := choices_reach_mailbox choices
  obtain ⟨b, hb, hreads⟩ := hmachine firmware world _ hprocessor hknown hthrough
  have hblock : b = Revision.v11.registers := (Option.some.inj hb).symm
  subst hblock
  obtain ⟨hresult, hchip, htally, -, -⟩ := hreads ⟨by decide, _, rfl, rfl⟩
  exact ⟨hresult, htally _, by rw [hchip]; rfl, by rw [hchip]; rfl⟩

end Unready
end ManagementUnit
