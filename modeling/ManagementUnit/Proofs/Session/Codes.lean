/-
  ManagementUnit.Proofs.Session.Codes
  ────────────────────────────────
  How far a response code tells failures apart.

  What the firmware answers is passed on as the number it is, whatever the number,
  and the driver's own codes are numbers of the same width.  Rejections with different
  statuses therefore have different codes, and so have the driver's own failures; but
  firmware that answers with one of the driver's codes is taken for the driver:

      status FBh · timeout    status F9h · no mailbox    status F6h · bus fault

  That is all there is to confuse.

  Main results:
    * `code_eq_iff`    — two failures of different kinds have one code only if one
      imitates the other.
    * `codes_imitated` — so it is for any two commands that fail.
-/
import ManagementUnit.Proofs.Session.Response

namespace ManagementUnit

/-! ## §1. Kinds of failures. -/

/-- What kind a failure is of: rejections are told apart by their status, and the
others by their form alone. -/
inductive FailureKind where
  | bus
  | timeout
  | rejected (status : Status)
  | unsupported
  | shortBuffer
  | unmapped
  | unidentified
  deriving DecidableEq

/-- A status that goes by its name, if it has one. -/
def Status.Named (status : Status) : Prop := ofRaw status.raw = status

namespace Failure

/-- The kind of a failure. -/
def kind : Failure → FailureKind
  | bus _ => .bus
  | timeout => .timeout
  | rejected status => .rejected status
  | unsupported => .unsupported
  | shortBuffer _ => .shortBuffer
  | unmapped _ => .unmapped
  | unidentified _ => .unidentified

/-- The code that the driver itself has for a transaction that fails; `none` if it is
the firmware's. -/
def ownCode? : Failure → Option UInt32
  | bus _ => some 0xF6
  | timeout => some 0xFB
  | unsupported => some 0xF9
  | rejected _ | shortBuffer _ | unmapped _ | unidentified _ => none

/-- `f` is a rejection, and its status is the number that the driver has as its own
code for `f'`. -/
def Imitates (f f' : Failure) : Prop :=
  ∃ code, f'.ownCode? = some code ∧ f = rejected (.other code)

variable {f f' : Failure} {code code' : UInt32} {status : Status}

/-- The driver's own codes are reported as they are, and no status has a name for
one of them. -/
theorem responseCode?_of_own (h : f.ownCode? = some code) :
    f.responseCode? = some code ∧ Status.ofRaw code = .other code := by
  cases f <;> cases h <;> exact ⟨rfl, rfl⟩

/-- The kind that one of them stands for. -/
def kindOfOwn (code : UInt32) : FailureKind :=
  if code = 0xF6 then .bus else if code = 0xFB then .timeout else .unsupported

/-- They are different for different kinds. -/
theorem kind_eq_kindOfOwn (h : f.ownCode? = some code) : f.kind = kindOfOwn code := by
  cases f <;> cases h <;> rfl

theorem not_imitates_of_own (h : f.ownCode? = some code) : ¬ f.Imitates f' := by
  rintro ⟨_, -, rfl⟩
  cases h

theorem not_imitates_rejected : ¬ f.Imitates (rejected status) := by
  rintro ⟨_, hcode, -⟩
  cases hcode

/-- A rejection has the code of a failure of the driver just if it imitates that
failure. -/
theorem rejected_code_eq_iff (hstatus : status.Named) (h : f.ownCode? = some code) :
    (rejected status).responseCode? = f.responseCode? ↔ (rejected status).Imitates f := by
  obtain ⟨hcode, hother⟩ := responseCode?_of_own h
  rw [hcode]
  constructor
  · intro heq
    refine ⟨code, h, ?_⟩
    rw [← hother, ← Option.some.inj heq, hstatus]
  · rintro ⟨code', h', heq⟩
    cases Option.some.inj (h.symm.trans h')
    rw [heq]
    rfl

/-! ## §2. Failures of transactions. -/

/-- A failure that a transaction can end in: the driver has a code for it, or it is
a rejection. -/
def Transacted (f : Failure) : Prop :=
  (∃ code, f.ownCode? = some code) ∨ ∃ status : Status, f = rejected status ∧ status.Named

/-- Two failures of different kinds have one code only if one imitates the other. -/
theorem code_eq_iff (h : f.Transacted) (h' : f'.Transacted) (hkind : f.kind ≠ f'.kind) :
    f.responseCode? = f'.responseCode? ↔ f.Imitates f' ∨ f'.Imitates f := by
  rcases h with ⟨code, h⟩ | ⟨status, rfl, hstatus⟩
  · rcases h' with ⟨code', h'⟩ | ⟨status', rfl, hstatus'⟩
    · -- two codes of the driver
      rw [(responseCode?_of_own h).1, (responseCode?_of_own h').1]
      refine ⟨fun heq => absurd ?_ hkind, ?_⟩
      · rw [kind_eq_kindOfOwn h, kind_eq_kindOfOwn h', Option.some.inj heq]
      · rintro (himitates | himitates)
        · exact absurd himitates (not_imitates_of_own h)
        · exact absurd himitates (not_imitates_of_own h')
    · rw [eq_comm, rejected_code_eq_iff hstatus' h, or_iff_right not_imitates_rejected]
  · rcases h' with ⟨code', h'⟩ | ⟨status', rfl, hstatus'⟩
    · rw [rejected_code_eq_iff hstatus h', or_iff_left not_imitates_rejected]
    · -- two numbers of the firmware
      refine ⟨fun heq => absurd ?_ hkind, ?_⟩
      · have hraw : status.raw = status'.raw := Option.some.inj heq
        rw [← hstatus, ← hstatus', hraw]
      · rintro (himitates | himitates)
        · exact absurd himitates not_imitates_rejected
        · exact absurd himitates not_imitates_rejected

theorem transacted_of_reaches {m : Mailboxes} {channel : Channel} {opcode : UInt32}
    {sent : Arguments} {es : List Event}
    (h : (m.execute channel opcode sent).run.Reaches es (.error f)) : f.Transacted := by
  cases hb : m.registers? channel with
  | none =>
    obtain ⟨_, -, -, hfailure⟩ := conducts_execute_absent hb opcode sent es _ h
    cases hfailure
    exact .inl ⟨_, rfl⟩
  | some b =>
    obtain ⟨_, -, hcourse, -⟩ := conducts_execute hb opcode sent es _ h
    cases hcourse with
    | faulted => exact .inl ⟨_, rfl⟩
    | exhausted => exact .inl ⟨_, rfl⟩
    | rejected => exact .inr ⟨_, rfl, congrArg Status.ofRaw (Status.raw_ofRaw _)⟩

end Failure

/-! ## §3. Commands that fail. -/

theorem Session.transacted_of_commanded {σ : Type} {s : Session} {channel : Channel}
    {opcode : UInt32} {platform : Platform σ} {x : σ} {f : Failure}
    (h : (s.commanded channel opcode platform x).outcome = .error f) : f.Transacted := by
  have hreach := s.reaches_outcome channel opcode platform x
  rw [h] at hreach
  exact Failure.transacted_of_reaches hreach

/-- However two platforms answer, two commands that fail in different ways are
reported under different codes, and leave these codes, unless the failure of one
imitates that of the other. -/
theorem codes_imitated {σ τ : Type} (platform : Platform σ) (x : σ) (platform' : Platform τ)
    (x' : τ) (s s' : Session) (channel channel' : Channel) (opcode opcode' : UInt32)
    {f f' : Failure} (hf : (s.commanded channel opcode platform x).outcome = .error f)
    (hf' : (s'.commanded channel' opcode' platform' x').outcome = .error f')
    (hkind : f.kind ≠ f'.kind) :
    let r := s.commanded channel opcode platform x
    let r' := s'.commanded channel' opcode' platform' x'
    (f.responseCode? = some r.code ∧ r.kept = r.code) ∧
      (f'.responseCode? = some r'.code ∧ r'.kept = r'.code) ∧
      (r.code = r'.code ↔ f.Imitates f' ∨ f'.Imitates f) := by
  intro r r'
  have haccounted := s.commanded_accounted channel opcode platform x
  have haccounted' := s'.commanded_accounted channel' opcode' platform' x'
  have hcode : f.responseCode? = some r.code := (haccounted.named f hf).2
  have hcode' : f'.responseCode? = some r'.code := (haccounted'.named f' hf').2
  refine ⟨⟨hcode, haccounted.kept⟩, ⟨hcode', haccounted'.kept⟩, ?_⟩
  have hiff := Failure.code_eq_iff (Session.transacted_of_commanded hf)
    (Session.transacted_of_commanded hf') hkind
  rwa [hcode, hcode', Option.some.injEq] at hiff

/-! ## §4. Firmware that answers with a code of the driver. -/

namespace Simulation.Imitated

open Aborted (echo)

/-- A mailbox that gives every command the same status. -/
def mailbox (status : UInt32) : Mailbox := { Aborted.mailbox with forced? := some status }

/-- A machine without faults that has this mailbox, with a given value in its
response register. -/
def machine (status response : UInt32) : World Unit where
  chip := { ({} : Chip).poke (mailbox status).registers.response response with
    mailboxes := [mailbox status] }
  firmware := ()

/-- A session on a driver that may read the response register as seldom as can be
set. -/
def session : Session := .start
  { processor := ⟨0x17, 0x71, 0, .am4, .matisse⟩
    settings := Settings.standard.withBudget Settings.budgetMin
    mailboxes := ⟨.matisse, Settings.budgetMin, .standard⟩
    table := { codename := .matisse, interval := Settings.intervalMin }
    firmware := ⟨0x2E3D00⟩
    capabilities := { generalPurpose := true } }

/-- A command on the general purpose mailbox of a machine. -/
def commanded (status response : UInt32) : Session.Commanded :=
  session.commanded .rsmu 5 (World.platform echo) (machine status response)

theorem carries (status response : UInt32) :
    (machine status response).chip.Carries 0 (mailbox status) := by
  refine ⟨rfl, ?_, show Aborted.mailbox.registers.registers.Nodup by decide⟩
  intro j other hj hne
  obtain ⟨k, rfl⟩ := Nat.exists_eq_succ_of_ne_zero hne
  cases hj

theorem outcome_eq (status response : UInt32) :
    (commanded status response).outcome = (machine status response).result echo
      session.driver.mailboxes .rsmu 5 session.slots.arguments := rfl

/-- An idle machine rejects the command with its status. -/
theorem outcome_idle {status : UInt32} (hstatus : status ≠ 0) (hfail : status ≠ ResponseCode.ok) :
    (commanded status ResponseCode.ok).outcome = .error (.rejected (Status.ofRaw status)) := by
  have hresult := @World.result_answer Unit echo (machine status ResponseCode.ok)
    session.driver.mailboxes .rsmu 0 (mailbox status) 5 session.slots.arguments
    ⟨rfl, by decide⟩ rfl (carries status _) rfl (Chip.works_of_nil rfl rfl _)
    (show ResponseCode.ok ≠ 0 by decide) hstatus (show 0 + 0 + 2 ≤ Settings.budgetMin by decide)
  rw [outcome_eq, hresult]
  exact if_neg hfail

/-- Behind a response register at zero, it times out. -/
theorem outcome_silent (status : UInt32) : (commanded status 0).outcome = .error .timeout := by
  have hmute : (machine status 0).Mute session.driver.mailboxes .rsmu 0 (mailbox status) :=
    ⟨⟨rfl, by decide⟩, rfl, carries status 0, Chip.works_of_nil rfl rfl _, rfl⟩
  rw [outcome_eq]
  exact (hmute.transacted echo Settings.budgetMin 5 session.slots.arguments).1

/-- A status with a name is told from a timeout. -/
theorem codes_imitated_busy :
    (commanded 0xFC ResponseCode.ok).outcome = .error (.rejected .busy) ∧
      (commanded 0xFC 0).outcome = .error .timeout ∧
      (commanded 0xFC ResponseCode.ok).code ≠ (commanded 0xFC 0).code := by
  have hidle : (commanded 0xFC ResponseCode.ok).outcome = .error (.rejected .busy) :=
    outcome_idle (by decide) (by decide)
  obtain ⟨-, -, hcodes⟩ := codes_imitated (World.platform echo) (machine 0xFC ResponseCode.ok)
    (World.platform echo) (machine 0xFC 0) session session .rsmu .rsmu 5 5 hidle
    (outcome_silent 0xFC) (by decide)
  refine ⟨hidle, outcome_silent 0xFC, fun heq => ?_⟩
  rcases hcodes.1 heq with ⟨code, -, himitates⟩ | ⟨code, -, himitates⟩
  · cases himitates
  · cases himitates

/-- Firmware that answers with FBh is taken for firmware that does not answer. -/
theorem status_taken_for_timeout :
    (commanded 0xFB ResponseCode.ok).outcome = .error (.rejected (.other 0xFB)) ∧
      (commanded 0xFB 0).outcome = .error .timeout ∧
      (Failure.rejected (.other 0xFB)).kind ≠ Failure.timeout.kind ∧
      (commanded 0xFB ResponseCode.ok).code = (commanded 0xFB 0).code ∧
      (commanded 0xFB ResponseCode.ok).kept = (commanded 0xFB 0).kept := by
  have hidle : (commanded 0xFB ResponseCode.ok).outcome = .error (.rejected (.other 0xFB)) :=
    outcome_idle (by decide) (by decide)
  have hsilent := outcome_silent 0xFB
  obtain ⟨hcode, hkept⟩ :=
    session.commanded_code .rsmu 5 (World.platform echo) (machine 0xFB ResponseCode.ok)
  obtain ⟨hcode', hkept'⟩ := session.commanded_code .rsmu 5 (World.platform echo) (machine 0xFB 0)
  rw [← commanded, hidle] at hcode hkept
  rw [← commanded, hsilent] at hcode' hkept'
  exact ⟨hidle, hsilent, by decide, hcode.trans hcode'.symm, hkept.trans hkept'.symm⟩

end Simulation.Imitated
end ManagementUnit
