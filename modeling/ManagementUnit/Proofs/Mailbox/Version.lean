/-
  ManagementUnit.Proofs.Mailbox.Version
  ────────────────────────────────
  Which word a version is.

  A word that cannot be read back is left as it was sent, so the answer to a
  command need not come from the firmware.  For the location of a table nothing
  tells (`Unread.own_word_taken`).  A version is safe from this: what is sent with
  the query is a one, and a word of one byte is a status and no version.  So the
  check that is meant for status codes also catches every read that faulted.

  That an answer is known by the reads it was made of rests on the course of the
  transaction: only one that is answered with success reads an argument register
  at all, and it reads each of them once.

  Main results:
    * `Course.answered_of_read` — a transaction that reads an argument register was
      answered with success.
    * `Answered.unique`         — the accesses tell how each of these reads ended.
    * `version_told`            — a version is the word that was read.
-/
import ManagementUnit.Proofs.Mailbox.Conversation
import ManagementUnit.Proofs.Table.Provenance

namespace ManagementUnit

/-! ## §1. Transactions that read an argument register. -/

section Reads

variable {b : RegisterBlock} {opcode : UInt32} {sent : Arguments}

/-- Until a status has come, no argument register is read. -/
theorem Due.read_not_mem (hnodup : b.registers.Nodup) {done : List Access} {op : Operation}
    (h : Due b opcode sent done op) (i : Fin wordCount) (o : Except NetworkFault UInt32) :
    .read (b.argument i.val) o ∉ done := by
  intro hmem
  cases h with
  | gate n => exact RegisterBlock.read_not_mem_zeroReads hnodup i o n hmem
  | request hv hsplit =>
    rcases List.mem_append.1 hmem with hmem | hmem
    · exact RegisterBlock.read_not_mem_poll hnodup i o _ _ hmem
    · exact RegisterBlock.read_not_mem_stored _ o _ hmem
  | completion k hv =>
    simp only [List.mem_append, or_assoc] at hmem
    rcases hmem with hmem | hmem | hmem
    · exact RegisterBlock.read_not_mem_poll hnodup i o _ _ hmem
    · exact RegisterBlock.read_not_mem_stored _ o _ hmem
    · exact RegisterBlock.read_not_mem_zeroReads hnodup i o k hmem

/-- Nor is it what is tried next. -/
theorem Due.failed_ne_read (hnodup : b.registers.Nodup) {done : List Access} {op : Operation}
    (h : Due b opcode sent done op) (f : NetworkFault) (i : Fin wordCount)
    (o : Except NetworkFault UInt32) : .read (b.argument i.val) o ≠ op.failed f := by
  intro heq
  cases h with
  | gate | completion =>
    exact RegisterBlock.response_ne_argument hnodup i (Access.read.inj heq).1.symm
  | request => cases heq

/-- Where an argument register is read, the status was success, and the answer is what
was read. -/
theorem Course.answered_of_read (hnodup : b.registers.Nodup) {budget : Nat} {as : List Access}
    {r : Except Failure Arguments} (h : Course b opcode sent budget as r) {i : Fin wordCount}
    {o : Except NetworkFault UInt32} (hread : .read (b.argument i.val) o ∈ as) :
    ∃ outcomes, b.Answered opcode sent as outcomes ∧ r = .ok (sent.received outcomes) := by
  cases h with
  | faulted f hdue =>
    rcases List.mem_append.1 hread with hread | hread
    · exact absurd hread (hdue.read_not_mem hnodup i o)
    · exact absurd (List.mem_singleton.1 hread) (hdue.failed_ne_read hnodup f i o)
  | exhausted hdue => exact absurd hread (hdue.read_not_mem hnodup i o)
  | rejected hv hraw hfail =>
    simp only [List.mem_append, or_assoc] at hread
    rcases hread with hread | hread | hread
    · exact absurd hread (RegisterBlock.read_not_mem_poll hnodup i o _ _)
    · exact absurd hread (RegisterBlock.read_not_mem_stored _ o _)
    · exact absurd hread (RegisterBlock.read_not_mem_poll hnodup i o _ _)
  | answered hv outcomes => exact ⟨outcomes, .intro hv outcomes, rfl⟩

namespace RegisterBlock.Answered

variable {as : List Access} {outcomes outcomes' : Fin wordCount → Except NetworkFault UInt32}

/-- Each argument register is read. -/
theorem read_mem (h : b.Answered opcode sent as outcomes) (i : Fin wordCount) :
    .read (b.argument i.val) (outcomes i) ∈ as := by
  obtain ⟨hv, outcomes⟩ := h
  exact List.mem_append_right _ (List.mem_map.2 ⟨i, Arguments.mem_positions i, rfl⟩)

/-- The accesses tell how each of these reads ended. -/
theorem unique (hnodup : b.registers.Nodup) (h : b.Answered opcode sent as outcomes)
    (h' : b.Answered opcode sent as outcomes') : outcomes = outcomes' := by
  funext i
  have hread := h'.read_mem i
  obtain ⟨hv, outcomes⟩ := h
  exact (RegisterBlock.mem_readBack_of_read hnodup hread).2

/-- So a transaction with these accesses has the words for its answer that they tell. -/
theorem result_eq (hnodup : b.registers.Nodup) {budget : Nat} {r : Except Failure Arguments}
    (h : b.Answered opcode sent as outcomes) (hcourse : Course b opcode sent budget as r) :
    r = .ok (sent.received outcomes) := by
  obtain ⟨outcomes', h', rfl⟩ := hcourse.answered_of_read hnodup (h.read_mem 0)
  rw [h.unique hnodup h']

end RegisterBlock.Answered

end Reads

/-! ## §2. Versions. -/

/-- What a word of an answer tells of the version: one of more than a byte is a version,
and any other a rejection. -/
def Version.ofWord (word : UInt32) : Except Failure Version :=
  if word ≤ 0xFF then .error (.rejected .failed) else .ok ⟨word⟩

/-- What reading the first word of the answer tells of it. -/
def Version.ofReading : Except NetworkFault UInt32 → Except Failure Version
  | .ok word => ofWord word
  | .error _ => .error (.rejected .failed)

/-- An answer tells the version that reading its first word does: where that faulted,
the one that was sent stands in, and it is no version. -/
theorem Version.ofAnswer_received (outcomes : Fin wordCount → Except NetworkFault UInt32) :
    ofAnswer ((Arguments.first 1).received outcomes) = ofReading (outcomes 0) := by
  unfold ofAnswer
  rw [Arguments.word0, Arguments.get_received]
  cases outcomes 0 with
  | ok word => rfl
  | error f => rfl

theorem Version.ofReading_eq_ok_iff {o : Except NetworkFault UInt32} {v : Version} :
    ofReading o = .ok v ↔ o = .ok v.raw ∧ 0xFF < v.raw := by
  cases o with
  | error f => exact ⟨nofun, fun h => nomatch h.1⟩
  | ok word =>
    show ofWord word = .ok v ↔ _
    unfold ofWord
    by_cases hsmall : word ≤ 0xFF
    · rw [if_pos hsmall]
      refine ⟨nofun, fun h => ?_⟩
      cases h.1
      exact absurd hsmall (UInt32.not_le.2 h.2)
    · rw [if_neg hsmall]
      constructor
      · rintro ⟨⟩
        exact ⟨rfl, UInt32.not_le.1 hsmall⟩
      · rintro ⟨⟨⟩, -⟩
        rfl

/-- What the version query makes of a transaction with the accesses `as` that ended in
`answer`: the query ends in `r`. -/
structure Mailboxes.Queried (m : Mailboxes) (channel : Channel) (as : List Access)
    (answer : Except Failure Arguments) (r : Except Failure Version) : Prop where
  /-- Without the mailbox there is nothing to access. -/
  unsupported : m.registers? channel = none → as = [] ∧ answer = .error .unsupported
  /-- With it, the accesses are those of one transaction. -/
  course : ∀ b, m.registers? channel = some b →
    Course b 0x02 ⟨#v[1, 0, 0, 0, 0, 0]⟩ m.budget as answer
  /-- A failure is passed on as it is. -/
  failed : ∀ f, answer = .error f → r = .error f
  /-- Where the transaction is answered, it is the read of the first argument register
  that tells, and be it that it faulted. -/
  answered : ∀ b outcomes, m.registers? channel = some b →
    b.Answered 0x02 ⟨#v[1, 0, 0, 0, 0, 0]⟩ as outcomes → r = Version.ofReading (outcomes 0)
  /-- There is no version but one that was read there after success. -/
  told : ∀ v, r = .ok v ↔ ∃ b outcomes, m.registers? channel = some b ∧
    b.Answered 0x02 ⟨#v[1, 0, 0, 0, 0, 0]⟩ as outcomes ∧ outcomes 0 = .ok v.raw ∧ 0xFF < v.raw

/-- Without the mailbox the query fails as the transaction does. -/
theorem Mailboxes.Queried.absent {m : Mailboxes} {channel : Channel}
    (hb : m.registers? channel = none) {as : List Access} (has : as = []) :
    m.Queried channel as (.error .unsupported) (.error .unsupported) := by
  refine ⟨fun _ => ⟨has, rfl⟩, fun b hb' => ?_, fun f hf => ?_, fun b _ hb' => ?_,
    fun v => ⟨nofun, ?_⟩⟩
  · cases hb.symm.trans hb'
  · cases hf
    rfl
  · cases hb.symm.trans hb'
  · rintro ⟨b, _, hb', -⟩
    cases hb.symm.trans hb'

/-- With it, whatever the course of the transaction is, this is what comes of it. -/
theorem Course.queried {m : Mailboxes} {channel : Channel} {b : RegisterBlock}
    (hb : m.registers? channel = some b) {as : List Access} {answer : Except Failure Arguments}
    (hcourse : Course b Mailboxes.versionOpcode (.first 1) m.budget as answer) :
    m.Queried channel as answer (answer.bind Version.ofAnswer) := by
  have hnodup := Codename.nodup_registers hb
  have hanswered : ∀ outcomes, b.Answered Mailboxes.versionOpcode (.first 1) as outcomes →
      answer.bind Version.ofAnswer = Version.ofReading (outcomes 0) := by
    intro outcomes h
    rw [h.result_eq hnodup hcourse]
    exact Version.ofAnswer_received outcomes
  refine ⟨fun hnone => ?_, ?_, ?_, ?_, fun v => ⟨fun hv => ?_, ?_⟩⟩
  · cases hb.symm.trans hnone
  · intro b' hb'
    cases hb.symm.trans hb'
    exact hcourse
  · rintro f rfl
    rfl
  · intro b' outcomes hb' h
    cases hb.symm.trans hb'
    exact hanswered outcomes h
  · obtain ⟨outcomes, h⟩ :
        ∃ outcomes, b.Answered Mailboxes.versionOpcode (.first 1) as outcomes := by
      -- of all courses only one that was answered has words to make a version of
      cases hcourse with
      | faulted | exhausted | rejected => cases hv
      | answered hne outcomes => exact ⟨outcomes, .intro hne outcomes⟩
    rw [hanswered outcomes h] at hv
    exact ⟨b, outcomes, hb, h, Version.ofReading_eq_ok_iff.1 hv⟩
  · rintro ⟨b', outcomes, hb', h, hread⟩
    cases hb.symm.trans hb'
    rw [hanswered outcomes h]
    exact Version.ofReading_eq_ok_iff.2 hread

/-- On any platform, whatever faults, the version query is one transaction with opcode
two and a one for its first word, and leaves nothing else behind.  It tells a version if
and only if that is the word, of more than a byte, that was read from the first argument
register after the status told success.  Where that read faults it ends in a rejection;
where the transaction fails, in the same failure. -/
theorem version_told {σ : Type} (platform : Platform σ) (s : σ) (m : Mailboxes)
    (channel : Channel) :
    let query := (m.version channel).run
    let transaction := (m.execute channel 0x02 ⟨#v[1, 0, 0, 0, 0, 0]⟩).run
    query.journal platform s = transaction.journal platform s ∧
      (query.run platform s).2 = (transaction.run platform s).2 ∧
        ∃ as, Traffic m.window (query.journal platform s) as ∧
          m.Queried channel as (transaction.run platform s).1 (query.run platform s).1 := by
  intro query transaction
  have hquery : query = transaction >>= fun answer => pure (answer.bind Version.ofAnswer) :=
    m.run_version channel
  have hjournal : query.journal platform s = transaction.journal platform s := by
    rw [hquery, Program.journal_bind]
    exact List.append_nil _
  refine ⟨hjournal, ?_, ?_⟩
  · rw [hquery, Program.run_bind]
    rfl
  · obtain ⟨as, has, hend⟩ := execute_course platform s m channel 0x02 ⟨#v[1, 0, 0, 0, 0, 0]⟩
    refine ⟨as, hjournal ▸ has, ?_⟩
    rw [hquery, Program.run_bind]
    show m.Queried channel as _ ((transaction.run platform s).1.bind Version.ofAnswer)
    cases hb : m.registers? channel with
    | none =>
      rw [hb] at hend
      rw [hend.2]
      exact .absent hb hend.1
    | some b =>
      rw [hb] at hend
      exact hend.1.queried hb

namespace Unread

open Simulation

-- where everything works, the version is the first word of the firmware's answer
example : ((mailboxes.version .rsmu).run.run (World.platform firmware) sound).1 =
    .ok ⟨0xDF100000⟩ := rfl

-- with the first argument register unreadable the same answer is turned down
example : ((mailboxes.version .rsmu).run.run (World.platform firmware) broken).1 =
    .error (.rejected .failed) := rfl

end Unread
end ManagementUnit
