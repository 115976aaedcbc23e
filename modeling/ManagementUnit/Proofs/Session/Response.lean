/-
  ManagementUnit.Proofs.Session.Response
  ────────────────────────────────
  What the response code of a command says.

  The code comes out of the accesses of the transaction behind it.  If the response
  register told a status once the command was written, the code is that status as
  the number it was, success included.  Otherwise nothing was told, and the code is
  the driver's own, one for each reason why that can be:

      no mailbox · F9h    budget spent · FBh    access faulted · F6h

  A status is never zero, and none of the driver's codes is.  So no operation on a
  session leaves a zero.

  Main results:
    * `Course.completion?_eq` — the status that a transaction reports is the one that
      was read.
    * `Course.reported`       — so the code tells how the transaction went.
    * `response_accounted`    — that is the code that a command on a platform returns
      and keeps, and what is kept is never zero.
-/
import Mathlib.Data.List.TakeWhile
import ManagementUnit.Proofs.Mailbox.Completion
import ManagementUnit.Proofs.Mailbox.Timeout
import ManagementUnit.Proofs.Session.Reference

namespace ManagementUnit

/-! ## §1. The status that was read. -/

/-- Whether an access stores a word in a given register. -/
def Access.isStoreTo (address : UInt32) : Access → Bool
  | write a _ (.ok _) => a == address
  | write _ _ (.error _) | read .. => false

/-- The status that a reading of the response register tells; zero is none. -/
def statusOf? : Except NetworkFault UInt32 → Option UInt32
  | .ok v => if v = 0 then none else some v
  | .error _ => none

namespace RegisterBlock

/-- The first status among the readings of the response register. -/
def firstStatus? (b : RegisterBlock) (as : List Access) : Option UInt32 :=
  (as.filterMap (Access.reading? b.response)).findSome? statusOf?

/-- The status of a command, going by the accesses `as`: the first one that the
response register tells once the command register was written. -/
def completion? (b : RegisterBlock) (as : List Access) : Option UInt32 :=
  b.firstStatus? (as.dropWhile fun x => !x.isStoreTo b.command)

variable {b : RegisterBlock} {as rest : List Access} {opcode : UInt32} {sent : Arguments}

/-- Zeros tell nothing. -/
theorem firstStatus?_zeroReads (n : Nat) (rest : List Access) :
    b.firstStatus? (b.zeroReads n ++ rest) = b.firstStatus? rest := by
  induction n with
  | zero => rfl
  | succ n ih =>
    rw [zeroReads, List.replicate_succ, List.cons_append, ← zeroReads, ← ih]
    simp [firstStatus?, Access.reading?, statusOf?]

theorem firstStatus?_poll (n : Nat) {v : UInt32} (hv : v ≠ 0) (rest : List Access) :
    b.firstStatus? (b.poll n v ++ rest) = some v := by
  rw [poll, List.append_assoc, firstStatus?_zeroReads]
  simp [firstStatus?, Access.reading?, statusOf?, hv]

theorem firstStatus?_fault (n : Nat) (f : NetworkFault) :
    b.firstStatus? (b.zeroReads n ++ [.read b.response (.error f)]) = none := by
  rw [firstStatus?_zeroReads]
  simp [firstStatus?, Access.reading?, statusOf?]

theorem not_isStoreTo {a : UInt32} (h : ∀ v, .write a v (.ok ()) ∉ as) :
    ∀ x ∈ as, (!x.isStoreTo a) = true := by
  intro x hx
  cases x with
  | read => rfl
  | write a' v outcome =>
    cases outcome with
    | error => rfl
    | ok _ =>
      have hne : a' ≠ a := fun heq => h v (heq ▸ hx)
      simpa [Access.isStoreTo] using hne

/-- Without a command there is no status of it. -/
theorem completion?_of_unwritten (h : ∀ v, .write b.command v (.ok ()) ∉ as) :
    b.completion? as = none := by
  rw [completion?, List.dropWhile_eq_nil_iff.2 (not_isStoreTo h)]
  rfl

/-- Behind a request, what the response register tells is the status. -/
theorem completion?_of_request (hnodup : b.registers.Nodup) (n : Nat) (v : UInt32)
    (rest : List Access) :
    b.completion? (b.poll n v ++ (b.request opcode sent).map Access.stored ++ rest) =
      b.firstStatus? rest := by
  obtain ⟨front, hfront, hwhole⟩ := exists_front_of_request hnodup n v opcode sent rest
  rw [hwhole, completion?, List.dropWhile_append_of_pos (not_isStoreTo hfront)]
  simp [Access.isStoreTo, firstStatus?, Access.reading?, List.filterMap_cons]

end RegisterBlock

/-! ## §2. What a course is reported as. -/

/-- What the accesses `as` of a command are reported as. -/
inductive Reported (m : Mailboxes) (channel : Channel) (as : List Access) : UInt32 → Prop where
  | absent (hb : m.registers? channel = none) (has : as = []) : Reported m channel as 0xF9
  /-- A status that was read is reported as the number it is. -/
  | completed {b : RegisterBlock} {status : UInt32} (hb : m.registers? channel = some b)
      (hstatus : b.completion? as = some status) : Reported m channel as status
  | exhausted {b : RegisterBlock} (hb : m.registers? channel = some b)
      (hstatus : b.completion? as = none) (hspent : readCount b.response as = m.budget)
      (hfaults : ∀ x ∈ as, x.fault? = none) : Reported m channel as 0xFB
  | faulted {b : RegisterBlock} {front : List Access} {x : Access} {f : NetworkFault}
      (hb : m.registers? channel = some b) (hstatus : b.completion? as = none)
      (hlast : as = front ++ [x]) (hfault : x.fault? = some f) : Reported m channel as 0xF6

theorem response_apply_changeOf (kept : Slots) (r : Except Failure Arguments) :
    (kept.apply (Session.changeOf r)).response = codeOf r := by
  cases r <;> rfl

/-- A failure whose code is neither that of success nor zero. -/
theorem own_code {f : Failure} {code : UInt32} (h : f.responseCode? = some code) (hzero : code ≠ 0)
    (hone : code ≠ 0x01) :
    codeOf (.error f) ≠ 0 ∧
      (codeOf (.error f) = 0x01 ↔ ∃ words : Arguments, Except.error f = .ok words) := by
  rw [codeOf_error h]
  exact ⟨hzero, fun heq => absurd heq hone, nofun⟩

namespace Course

variable {m : Mailboxes} {channel : Channel} {b : RegisterBlock} {opcode : UInt32}
  {sent : Arguments} {budget : Nat} {as : List Access} {r : Except Failure Arguments}

/-- The status that a transaction reports is the one that was read, and it reports
none if none was read. -/
theorem completion?_eq (hnodup : b.registers.Nodup) (h : Course b opcode sent budget as r) :
    b.completion? as = reportedStatus r := by
  cases h with
  | @faulted done op f hdue =>
    cases hdue with
    | gate n =>
      refine RegisterBlock.completion?_of_unwritten fun w hmem => ?_
      rcases List.mem_append.1 hmem with hmem | hmem
      · exact write_not_mem_zeroReads n hmem
      · exact Follows.storesNothing_failed _ f _ _ hmem
    | @request n v a u before after hv hsplit =>
      -- the access that faulted stores nothing, and the ones before it go elsewhere
      refine RegisterBlock.completion?_of_unwritten fun w hmem => ?_
      rcases List.mem_append.1 hmem with hmem | hmem
      · exact command_not_mem_of_stored hnodup hsplit n v w hmem
      · exact Follows.storesNothing_failed _ f _ _ hmem
    | completion k hv =>
      rw [List.append_assoc, RegisterBlock.completion?_of_request hnodup]
      exact RegisterBlock.firstStatus?_fault k f
  | exhausted hdue =>
    cases hdue with
    | gate n => exact RegisterBlock.completion?_of_unwritten fun v => write_not_mem_zeroReads n
    | completion k hv =>
      rw [RegisterBlock.completion?_of_request hnodup, ← List.append_nil (b.zeroReads k)]
      exact RegisterBlock.firstStatus?_zeroReads k []
  | @rejected n k v raw hv hraw =>
    have hpoll := RegisterBlock.firstStatus?_poll (b := b) k hraw []
    rw [List.append_nil] at hpoll
    rw [RegisterBlock.completion?_of_request hnodup, hpoll, reportedStatus, Status.raw_ofRaw]
  | @answered n k v hv outcomes =>
    rw [List.append_assoc, RegisterBlock.completion?_of_request hnodup]
    exact RegisterBlock.firstStatus?_poll k (by decide) _

/-- The code tells how the transaction went. -/
theorem reported (hb : m.registers? channel = some b) (h : Course b opcode sent m.budget as r) :
    Reported m channel as (codeOf r) := by
  have hstatus := h.completion?_eq (Codename.nodup_registers hb)
  cases h with
  | @faulted done op f hdue =>
    have hfault : (op.failed f).fault? = some f := by cases op <;> rfl
    exact .faulted hb hstatus rfl hfault
  | exhausted hdue hspent =>
    exact .exhausted hb hstatus hspent (Course.exhausted hdue hspent).fault?_of_timeout
  | rejected => exact .completed hb hstatus
  | answered => exact .completed hb hstatus

/-- It is 1 for success and for nothing else, and never zero. -/
theorem codeOf_eq_one_iff (h : Course b opcode sent budget as r) :
    codeOf r ≠ 0 ∧ (codeOf r = 0x01 ↔ ∃ words, r = .ok words) := by
  cases h with
  | faulted => exact own_code rfl (by decide) (by decide)
  | exhausted => exact own_code rfl (by decide) (by decide)
  | rejected hv hraw hfail => exact own_code (congrArg some (Status.raw_ofRaw _)) hraw hfail
  | answered hv outcomes =>
    exact ⟨show (0x01 : UInt32) ≠ 0 by decide, fun _ => ⟨_, rfl⟩, fun _ => rfl⟩

end Course

/-- Whatever a transaction comes to, its code says so: the accesses it made are
reported under it, 1 is success, and zero is nothing. -/
theorem reaches_code {m : Mailboxes} {channel : Channel} {opcode : UInt32} {sent : Arguments}
    {es : List Event} {r : Except Failure Arguments}
    (h : (m.execute channel opcode sent).run.Reaches es r) :
    (∃ as, Traffic m.window es as ∧ Reported m channel as (codeOf r)) ∧
      codeOf r ≠ 0 ∧ (codeOf r = 0x01 ↔ ∃ words, r = .ok words) := by
  cases hb : m.registers? channel with
  | none =>
    obtain ⟨as, has, rfl, rfl⟩ := conducts_execute_absent hb opcode sent es r h
    exact ⟨⟨[], has, .absent hb rfl⟩, own_code rfl (by decide) (by decide)⟩
  | some b =>
    obtain ⟨as, has, hcourse, -⟩ := conducts_execute hb opcode sent es r h
    exact ⟨⟨as, has, hcourse.reported hb⟩, hcourse.codeOf_eq_one_iff⟩

/-! ## §3. Commands on a platform. -/

namespace Session

/-- What a command on a platform comes to: the result of the transaction behind it,
the code it is reported under, and the code that is kept afterwards. -/
structure Commanded where
  outcome : Except Failure Arguments
  code : UInt32
  kept : UInt32

variable {σ : Type}

/-- Runs a command on a platform. -/
def commanded (s : Session) (channel : Channel) (opcode : UInt32) (platform : Platform σ) (x : σ) :
    Commanded :=
  let reported := (((command channel opcode).run s).run platform x).1
  { outcome :=
      ((s.driver.mailboxes.execute channel opcode s.slots.arguments).run.run platform x).1
    code := reported.1
    kept := reported.2.slots.response }

/-- A command is reported under the code of its transaction, and keeps that code. -/
theorem commanded_code (s : Session) (channel : Channel) (opcode : UInt32) (platform : Platform σ)
    (x : σ) :
    (s.commanded channel opcode platform x).code =
        codeOf (s.commanded channel opcode platform x).outcome ∧
      (s.commanded channel opcode platform x).kept =
        codeOf (s.commanded channel opcode platform x).outcome := by
  have hend : ∀ outcome y, ((s.conclude channel opcode outcome).run platform y).1 =
      (codeOf outcome, { s with slots := s.slots.apply (changeOf outcome) }) := by
    intro outcome y
    cases outcome <;> rfl
  unfold commanded
  rw [run_command, Program.run_bind, hend]
  exact ⟨rfl, response_apply_changeOf _ _⟩

theorem reaches_outcome (s : Session) (channel : Channel) (opcode : UInt32) (platform : Platform σ)
    (x : σ) :
    (s.driver.mailboxes.execute channel opcode s.slots.arguments).run.Reaches
      ((s.driver.mailboxes.execute channel opcode s.slots.arguments).run.journal platform x)
      (s.commanded channel opcode platform x).outcome :=
  Program.reaches_journal platform _ x

/-- The accesses of a command are those of its transaction. -/
theorem traffic_command {s : Session} {channel : Channel} {opcode : UInt32} {platform : Platform σ}
    {x : σ} {w : Window} {as : List Access}
    (h : Traffic w ((s.driver.mailboxes.execute channel opcode s.slots.arguments).run.journal
      platform x) as) :
    Traffic w (((command channel opcode).run s).journal platform x) as := by
  have hend : ∀ outcome y,
      Traffic w ((s.conclude channel opcode outcome).journal platform y) [] := by
    intro outcome y
    have hreach := Program.reaches_journal platform (s.conclude channel opcode outcome) y
    obtain ⟨_, hnone, rfl, -⟩ := s.conducts_conclude channel opcode outcome w _ _ hreach
    exact hnone
  rw [run_command, Program.journal_bind, ← List.append_nil as]
  exact h.append (hend _ _)

/-- What the code of a command says of the events `es` of that command. -/
structure Commanded.Accounted (r : Commanded) (m : Mailboxes) (channel : Channel)
    (es : List Event) : Prop where
  kept : r.kept = r.code
  ok_iff : r.code = 0x01 ↔ ∃ words, r.outcome = .ok words
  reported : ∃ as, Traffic m.window es as ∧ Reported m channel as r.code
  /-- A failure always has a code, for it is one that firmware or bridge can cause. -/
  named : ∀ f, r.outcome = .error f → f.isInquiry = true ∧ f.responseCode? = some r.code

theorem commanded_accounted (s : Session) (channel : Channel) (opcode : UInt32)
    (platform : Platform σ) (x : σ) :
    (s.commanded channel opcode platform x).Accounted s.driver.mailboxes channel
      (((command channel opcode).run s).journal platform x) := by
  have hreach := s.reaches_outcome channel opcode platform x
  obtain ⟨⟨as, has, hreported⟩, -, hone⟩ := reaches_code hreach
  obtain ⟨hcode, hkept⟩ := s.commanded_code channel opcode platform x
  rw [← hcode] at hreported hone
  refine ⟨hkept.trans hcode.symm, hone, ⟨as, traffic_command has, hreported⟩, fun f hf => ?_⟩
  -- a transaction only asks the firmware, and its failures have codes
  have hinquiry := (asks_execute _ _ _ _ _ hreach).2 f hf
  obtain ⟨code, hnamed⟩ := exists_responseCode hinquiry
  rw [hcode, hf, codeOf_error hnamed]
  exact ⟨hinquiry, hnamed⟩

/-! ## §4. Operations in a row. -/

/-- An action that finds a code leaves one. -/
theorem Action.Brings.response_ne_zero {m : Mailboxes} {kept : Slots} {action : Action}
    {es : List Event} {c : Change} (h : action.Brings m kept es c) (hkept : kept.response ≠ 0) :
    (kept.apply c).response ≠ 0 := by
  cases h with
  | given | read | unread | written | unwritten => exact hkept
  | answered => exact show (0x01 : UInt32) ≠ 0 by decide
  | @failed channel opcode es f code h hcode =>
    show code ≠ 0
    rw [← codeOf_error hcode]
    exact (reaches_code h).2.1

end Session

theorem SessionOperation.Makes.response_ne_zero {m : Mailboxes} {capabilities : Capabilities}
    {kept : Slots} {operation : SessionOperation} {es : List Event} {outcome : SessionOutcome}
    {c : Change}
    (h : operation.Makes m capabilities kept es outcome c) (hkept : kept.response ≠ 0) :
    (kept.apply c).response ≠ 0 := by
  cases h with
  | shown | refused => exact hkept
  | taken _ _ h => exact h.response_ne_zero hkept
  | acted h => exact h.response_ne_zero hkept

/-- However a platform answers, a command returns and keeps the code that its
transaction calls for, and no operation of a session leaves a zero as the code. -/
theorem response_accounted {σ : Type} (platform : Platform σ) (x : σ) :
    (∀ (s : Session) (channel : Channel) (opcode : UInt32),
      (s.commanded channel opcode platform x).Accounted s.driver.mailboxes channel
        (((Session.command channel opcode).run s).journal platform x)) ∧
      ∀ (d : Driver) (operations : List SessionOperation),
        ∀ u ∈ sessionUses platform x d operations, u.after.slots.response ≠ 0 := by
  refine ⟨fun s channel opcode => s.commanded_accounted channel opcode platform x,
    fun d operations => ?_⟩
  obtain ⟨s', hall⟩ :=
    @history_uses _ _ _ _ Session.use platform operations (Session.start d) x
  refine hall.forall_after (P := fun s => s.slots.response ≠ 0) ?_
    (show (0x01 : UInt32) ≠ 0 by decide)
  intro s u _ hu hresponse
  obtain ⟨⟨c, hc⟩, -⟩ := hu.follows
  rw [hc.after]
  exact hc.makes.response_ne_zero hresponse

end ManagementUnit
