/-
  ManagementUnit.Proofs.Simulation.Words
  ────────────────────────────────
  The network as a memory of words.

  An access takes two steps, an address on the index register and a word through
  the data register, and either may fail.  What the index register holds is never
  the caller's business: every access sets it anew.  So on a machine without
  mailboxes the network is a memory of words and nothing else, and `Flat` is that
  memory, with the addresses that cannot be read or written.

  The proof has two halves that know nothing of each other: the machine does what
  the flat memory does (`World.meet_flat`, one happening, `meetAll_flat`, all of
  them), and in a flat memory a word is what was stored last (`Flat.word_meetAll`).

  Main results:
    * `conducts_accessAll`       — on every platform accesses in a row show as one
      index write each, followed by at most one access to the data register.
    * `network_remembers_words`  — this, and that a machine without mailboxes
      remembers the last word stored at every address, whatever else happens.
-/
import ManagementUnit.Proofs.Mailbox.Course
import ManagementUnit.Proofs.Simulation.Mailbox

namespace ManagementUnit

open Program (Conducts conducts_pure conducts_read conducts_write)

/-! ## §1. Accesses in a row. -/

/-- Makes an access, and answers with the access as it ended. -/
def Operation.access (w : Window) : Operation → Program Access
  | read a => return .read a (← Network.read w a)
  | write a v => return .write a v (← Network.write w a v)

/-- What an access was meant to do. -/
def Access.operation : Access → Operation
  | read a _ => .read a
  | write a v _ => .write a v

/-- Makes accesses in a row; one that fails does not keep the others from being
made. -/
def Network.accessAll (w : Window) (ops : List Operation) : Program (List Access) :=
  ops.mapM (Operation.access w)

theorem conducts_access (w : Window) (op : Operation) :
    (op.access w).Conducts w fun as x => as = [x] ∧ x.operation = op := by
  cases op with
  | read a =>
    refine (conducts_read a).bind ?_
    intro as outcome has
    refine conducts_pure ?_
    rw [List.append_nil]
    exact ⟨has, rfl⟩
  | write a v =>
    refine (conducts_write a v).bind ?_
    intro as outcome has
    refine conducts_pure ?_
    rw [List.append_nil]
    exact ⟨has, rfl⟩

/-- Accesses in a row are made in this order, each once, and the answer tells how
each of them ended. -/
theorem conducts_accessAll (w : Window) (ops : List Operation) :
    (Network.accessAll w ops).Conducts w fun as xs => as = xs ∧ xs.map Access.operation = ops := by
  unfold Network.accessAll
  induction ops with
  | nil => exact conducts_pure ⟨rfl, rfl⟩
  | cons op ops ih =>
    rw [List.mapM_cons]
    refine (conducts_access w op).bind ?_
    rintro _ x ⟨rfl, hx⟩
    refine ih.bind ?_
    rintro as _ ⟨rfl, has⟩
    refine conducts_pure ?_
    rw [List.append_nil, List.singleton_append, List.map_cons, hx, has]
    exact ⟨rfl, rfl⟩

namespace Simulation

/-! ## §2. Happenings. -/

/-- What can happen to a network: an access, written down as `α`, or something
from outside. -/
inductive Happening (α : Type) where
  | access (access : α)
  /-- A word is set without an access. -/
  | poke (address value : UInt32)
  /-- From now on just these addresses cannot be read and cannot be written. -/
  | faults (reads writes : List UInt32)
  /-- Somebody else leaves an address on the index register. -/
  | leave (index : UInt32)

/-- The word that a happening stores at an address. -/
def Happening.storedAt? (a : UInt32) : Happening Access → Option UInt32
  | access (.write b v (.ok ())) | poke b v => if b = a then some v else none
  | access (.write _ _ (.error _)) | access (.read ..) | faults .. | leave _ => none

/-- The word that was stored last at an address; zero if none was. -/
def lastStored (log : List (Happening Access)) (a : UInt32) : UInt32 :=
  (log.reverse.findSome? (Happening.storedAt? a)).getD 0

/-- Meets one thing after the other.  Gives what came of each, and what is left. -/
def meetAll {α ι ω : Type} (meet : α → ι → ω × α) : α → List ι → List ω × α
  | a, [] => ([], a)
  | a, i :: rest =>
    let met := meet a i
    let others := meetAll meet met.2 rest
    (met.1 :: others.1, others.2)

/-! ## §3. The flat memory. -/

/-- Words at addresses, and the addresses that cannot be read or written. -/
structure Flat where
  word : UInt32 → UInt32
  faultyReads : List UInt32
  faultyWrites : List UInt32

namespace Flat

/-- An access to a flat memory, as it ends. -/
def serve (m : Flat) : Operation → Access × Flat
  | .read a => (.read a (if a ∈ m.faultyReads then .error (.read a) else .ok (m.word a)), m)
  | .write a v =>
    if a ∈ m.faultyWrites then (.write a v (.error (.write a)), m)
    else (.write a v (.ok ()), { m with word := Function.update m.word a v })

/-- What a happening comes to in a flat memory. -/
def meet (m : Flat) : Happening Operation → Happening Access × Flat
  | .access op => (.access (m.serve op).1, (m.serve op).2)
  | .poke a v => (.poke a v, { m with word := Function.update m.word a v })
  | .faults reads writes => (.faults reads writes, ⟨m.word, reads, writes⟩)
  | .leave index => (.leave index, m)

/-- An access leaves alone what can be accessed. -/
theorem serve_faults (m : Flat) (op : Operation) :
    (m.serve op).2.faultyReads = m.faultyReads ∧ (m.serve op).2.faultyWrites = m.faultyWrites := by
  cases op with
  | read a => exact ⟨rfl, rfl⟩
  | write a v =>
    simp only [serve]
    split <;> exact ⟨rfl, rfl⟩

/-- An access that fails stores nothing. -/
theorem serve_failed (m : Flat) (op : Operation) (h : (m.serve op).1.fault? ≠ none) :
    (m.serve op).2.word = m.word := by
  cases op with
  | read a => rfl
  | write a v =>
    simp only [serve] at h ⊢
    split at h
    · next ha => rw [if_pos ha]
    · exact absurd rfl h

/-- An access stores nothing at other addresses. -/
theorem serve_other (m : Flat) (op : Operation) {a : UInt32} (h : a ≠ op.address) :
    (m.serve op).2.word a = m.word a := by
  cases op with
  | read b => rfl
  | write b v =>
    simp only [serve]
    split
    · rfl
    · exact Function.update_of_ne h v m.word

/-- What a happening changes is the word that it stores. -/
theorem word_meet (m : Flat) (h : Happening Operation) (a : UInt32) :
    (m.meet h).2.word a = ((m.meet h).1.storedAt? a).getD (m.word a) := by
  have hupdate : ∀ b v, Function.update m.word b v a
      = (if b = a then some v else none).getD (m.word a) := by
    intro b v
    by_cases hb : b = a
    · subst hb
      rw [Function.update_self, if_pos rfl, Option.getD_some]
    · rw [Function.update_of_ne (Ne.symm hb), if_neg hb, Option.getD_none]
  cases h with
  | access op =>
    cases op with
    | read b => rfl
    | write b v =>
      simp only [meet, serve]
      split
      · rfl
      · exact hupdate b v
  | poke b v => exact hupdate b v
  | faults reads writes => rfl
  | leave index => rfl

/-- After some happenings a word is what was stored last, or what it was before. -/
theorem word_meetAll (m : Flat) (hs : List (Happening Operation)) (a : UInt32) :
    (meetAll meet m hs).2.word a
      = ((meetAll meet m hs).1.reverse.findSome? (Happening.storedAt? a)).getD (m.word a) := by
  induction hs generalizing m with
  | nil => rfl
  | cons h rest ih =>
    simp only [meetAll, List.reverse_cons, List.findSome?_append, List.findSome?_singleton]
    rw [ih, word_meet, Option.getD_or]

end Flat

/-! ## §4. A machine without mailboxes. -/

/-- The words of a chip and what cannot be accessed. -/
def Chip.flat (c : Chip) : Flat := ⟨c.peek, c.faultyReads, c.faultyWrites⟩

/-- The chip with other addresses that cannot be read and written. -/
def Chip.setFaults (c : Chip) (reads writes : List UInt32) : Chip :=
  { c with faultyReads := reads, faultyWrites := writes }

/-- What a happening comes to on a machine. -/
def World.meet {η : Type} (firmware : Firmware (η × Memory)) (w : Window) (world : World η) :
    Happening Operation → Happening Access × World η
  | .access op =>
    let answered := (op.access w).run (World.platform firmware) world
    (.access answered.1, answered.2)
  | .poke a v => (.poke a v, { world with chip := world.chip.poke a v })
  | .faults reads writes =>
    (.faults reads writes, { world with chip := world.chip.setFaults reads writes })
  | .leave index => (.leave index, { world with bridge := { world.bridge with index } })

section Served

variable {σ : Type}

/-- Where no mailbox is, a read gives the word. -/
theorem Chip.read_plain {c : Chip} (h : c.mailboxes = []) (a : UInt32) :
    c.read a = (if a ∈ c.faultyReads then none else some (c.peek a), c.countRead a) := by
  simp only [read, countRead, h, List.findIdx?_nil]
  split <;> rfl

/-- Where no mailbox is, a write stores the word and runs nothing. -/
theorem Chip.write_plain (firmware : Firmware σ) {c : Chip} (s : σ) (h : c.mailboxes = [])
    (a v : UInt32) :
    c.write firmware s a v =
      if a ∈ c.faultyWrites then (none, c.countWrite a, s)
      else (some (), (c.countWrite a).poke a v, s) := by
  simp only [write, mailboxAt?, countWrite, poke, h, List.findIdx?_nil]

/-- Where no mailbox is, an access is served as by a flat memory. -/
theorem Served.flat {firmware : Firmware σ} {u u' : Chip × σ} {x : Access}
    (h : Served firmware u x u') (hnone : u.1.mailboxes = []) :
    u.1.flat.serve x.operation = (x, u'.1.flat) ∧ u'.1.mailboxes = [] := by
  cases h with
  | @read c c' s a v h =>
    rw [Chip.read_plain hnone] at h
    split at h
    · cases h
    · next ha =>
      cases h
      exact ⟨congrArg (fun r => (Access.read a r, c.flat)) (if_neg ha), hnone⟩
  | @readFault c c' s a h =>
    rw [Chip.read_plain hnone] at h
    split at h
    · next ha =>
      cases h
      exact ⟨congrArg (fun r => (Access.read a r, c.flat)) (if_pos ha), hnone⟩
    · cases h
  | @write c c' s s' a v h =>
    rw [Chip.write_plain firmware s hnone] at h
    split at h
    · cases h
    · next ha =>
      cases h
      refine ⟨(if_neg ha).trans ?_, hnone⟩
      simp only [Chip.flat, Chip.peek_poke_eq]
      rfl
  | @writeFault c c' s s' a v h =>
    rw [Chip.write_plain firmware s hnone] at h
    split at h
    · next ha =>
      cases h
      exact ⟨if_pos ha, hnone⟩
    · cases h

end Served

section Machine

variable {η : Type} (firmware : Firmware (η × Memory)) {world : World η} {w : Window}

/-- An access on a machine is served by its chip. -/
theorem World.served_access (h : world.Through w) (op : Operation) :
    let answered := (op.access w).run (World.platform firmware) world
    answered.1.operation = op ∧ Served firmware world.core answered.1 answered.2.core ∧
      answered.2.Through w := by
  have hreaches := Program.reaches_journal (World.platform firmware) (op.access w) world
  obtain ⟨as, htraffic, rfl, hop⟩ := conducts_access w op _ _ hreaches
  obtain ⟨htrace, hthrough⟩ := htraffic.trace h (Answers.ofJournal (op.access w) world)
  exact ⟨hop, htrace.single, hthrough⟩

/-- A machine without mailboxes does with an access what the flat memory does. -/
theorem World.access_flat (h : world.Through w) (hnone : world.chip.mailboxes = [])
    (op : Operation) :
    let answered := (op.access w).run (World.platform firmware) world
    answered.1 = (world.chip.flat.serve op).1 ∧
      answered.2.chip.flat = (world.chip.flat.serve op).2 ∧
      answered.2.chip.mailboxes = [] ∧ answered.2.Through w := by
  obtain ⟨hop, hserved, hthrough⟩ := World.served_access firmware h op
  obtain ⟨hflat, hnone⟩ := hserved.flat hnone
  rw [hop] at hflat
  have hflat : world.chip.flat.serve op = _ := hflat
  rw [hflat]
  exact ⟨rfl, rfl, hnone, hthrough⟩

/-- So it does with everything that can happen. -/
theorem World.meet_flat (h : world.Through w) (hnone : world.chip.mailboxes = [])
    (e : Happening Operation) :
    (world.meet firmware w e).1 = (world.chip.flat.meet e).1 ∧
      (world.meet firmware w e).2.chip.flat = (world.chip.flat.meet e).2 ∧
      (world.meet firmware w e).2.chip.mailboxes = [] ∧
      (world.meet firmware w e).2.Through w := by
  cases e with
  | access op =>
    obtain ⟨hanswer, hafter, hrest⟩ := World.access_flat firmware h hnone op
    exact ⟨congrArg Happening.access hanswer, hafter, hrest⟩
  | poke a v =>
    refine ⟨rfl, ?_, hnone, ⟨h.window_eq, h.proper⟩⟩
    simp only [World.meet, Flat.meet, Chip.flat, Chip.peek_poke_eq]
    rfl
  | faults reads writes => exact ⟨rfl, rfl, hnone, ⟨h.window_eq, h.proper⟩⟩
  | leave index => exact ⟨rfl, rfl, hnone, ⟨h.window_eq, h.proper⟩⟩

/-- And with all of it in a row. -/
theorem World.meetAll_flat (h : world.Through w) (hnone : world.chip.mailboxes = [])
    (hs : List (Happening Operation)) :
    let met := meetAll (World.meet firmware w) world hs
    met.1 = (meetAll Flat.meet world.chip.flat hs).1 ∧
      met.2.chip.flat = (meetAll Flat.meet world.chip.flat hs).2 ∧
      met.2.chip.mailboxes = [] ∧ met.2.Through w := by
  induction hs generalizing world with
  | nil => exact ⟨rfl, rfl, hnone, h⟩
  | cons e rest ih =>
    obtain ⟨hmet, hflat, hnone, h⟩ := World.meet_flat firmware h hnone e
    obtain ⟨hmets, hafter⟩ := ih h hnone
    rw [hflat] at hmets hafter
    refine ⟨?_, hafter⟩
    simp only [meetAll]
    rw [hmet, hmets]

end Machine

/-! ## §5. What a machine remembers. -/

/-- How an access ends where words are remembered: `log` is what happened before
it, `c` and `c'` are the chip before and after it. -/
structure Remembers (log : List (Happening Access)) (c : Chip) (op : Operation) (x : Access)
    (c' : Chip) : Prop where
  /-- Every word is the one that was stored last. -/
  word : ∀ a, c.peek a = lastStored log a
  read : ∀ a, op = .read a →
    x = .read a (if a ∈ c.faultyReads then .error (.read a) else .ok (lastStored log a))
  write : ∀ a v, op = .write a v →
    x = .write a v (if a ∈ c.faultyWrites then .error (.write a) else .ok ())
  /-- An access that fails changes no word. -/
  failed : x.fault? ≠ none → ∀ a, c'.peek a = c.peek a
  /-- No access changes a word at another address. -/
  other : ∀ a, a ≠ op.address → c'.peek a = c.peek a
  faults : c'.faultyReads = c.faultyReads ∧ c'.faultyWrites = c.faultyWrites

/-- On every platform accesses in a row show as one index write each, with the
address of the access, followed by at most one access to the data register, and
by none if the index write fails.  On a machine without mailboxes on which
nothing was stored yet they find a memory of words: whatever has happened before
an access, accesses, words set from outside, addresses that begin or cease to
fault and addresses left on the index register, a read that does not fault gives
the word stored last, a faulting access changes nothing, and no access changes
another word. -/
theorem network_remembers_words :
    (∀ {σ : Type} (platform : Platform σ) (s : σ) (w : Window) (ops : List Operation),
      let accesses := ((Network.accessAll w ops).run platform s).1
      Traffic w ((Network.accessAll w ops).journal platform s) accesses ∧
        accesses.map Access.operation = ops) ∧
    ∀ {η : Type} (firmware : Firmware (η × Memory)) (world : World η) (w : Window),
      world.Through w → world.chip.mailboxes = [] → (∀ a, world.chip.peek a = 0) →
      ∀ (before : List (Happening Operation)) (op : Operation),
        let met := meetAll (World.meet firmware w) world before
        let answered := (op.access w).run (World.platform firmware) met.2
        Remembers met.1 met.2.chip op answered.1 answered.2.chip := by
  constructor
  · intro σ platform s w ops
    have hreaches := Program.reaches_journal platform (Network.accessAll w ops) s
    obtain ⟨as, htraffic, rfl, hops⟩ := conducts_accessAll w ops _ _ hreaches
    exact ⟨htraffic, hops⟩
  · intro η firmware world w h hnone hfresh before op
    obtain ⟨hlog, hflat, hnone', h'⟩ :=
      World.meetAll_flat firmware h hnone before
    obtain ⟨hanswer, hafter, -⟩ := World.access_flat firmware h' hnone' op
    intro met answered
    -- the flat memory before the access has the words that were stored last
    have hword : ∀ a, met.2.chip.peek a = lastStored met.1 a := by
      intro a
      have hlast := world.chip.flat.word_meetAll before a
      rw [← hlog, ← hflat] at hlast
      have hzero : world.chip.flat.word a = 0 := hfresh a
      rw [hzero] at hlast
      exact hlast
    have hpeek : answered.2.chip.peek = (met.2.chip.flat.serve op).2.word :=
      congrArg Flat.word hafter
    have hfaults := met.2.chip.flat.serve_faults op
    rw [← hafter] at hfaults
    refine ⟨hword, ?_, ?_, ?_, ?_, hfaults⟩
    · rintro a rfl
      rw [← hword]
      exact hanswer
    · rintro a v rfl
      refine hanswer.trans ?_
      simp only [Flat.serve]
      split
      · next ha => exact congrArg (Access.write a v) (if_pos ha).symm
      · next ha => exact congrArg (Access.write a v) (if_neg ha).symm
    · intro hfault a
      have hsame := met.2.chip.flat.serve_failed op (hanswer ▸ hfault)
      exact congrFun (hpeek.trans hsame) a
    · intro a ha
      exact (congrFun hpeek a).trans (met.2.chip.flat.serve_other op ha)

namespace Remembered

/-- A machine on which nothing was stored yet; somebody has left an address on
its index register. -/
def world : World Unit where
  firmware := ()
  bridge := ⟨.standard, 0x1234⟩

/-- No mailbox, so nothing runs. -/
def firmware : Firmware (Unit × Memory) := fun _ _ _ s => (none, s)

/-- A word is set, a write to it faults, and another address is left behind. -/
def before : List (Happening Operation) :=
  [.poke 8 5, .faults [] [8], .access (.write 8 6), .faults [4] [], .leave 12,
    .access (.write 16 7), .access (.read 4)]

/-- A read gives the word that was set, not the one whose write faulted. -/
theorem network_remembers_words_poked :
    world.Through .standard ∧ world.chip.mailboxes = [] ∧ (∀ a, world.chip.peek a = 0) ∧
      let met := meetAll (World.meet firmware .standard) world before
      ((Operation.read 8).access .standard |>.run (World.platform firmware) met.2).1
        = .read 8 (.ok 5) := by
  have hthrough : world.Through .standard := ⟨rfl, by decide⟩
  have hnone : world.chip.mailboxes = [] := rfl
  have hfresh : ∀ a, world.chip.peek a = 0 := fun _ => rfl
  refine ⟨hthrough, hnone, hfresh, ?_⟩
  exact ((network_remembers_words.2 firmware world .standard hthrough hnone hfresh before
    (.read 8)).read 8 rfl).trans rfl

end Remembered
end Simulation
end ManagementUnit
