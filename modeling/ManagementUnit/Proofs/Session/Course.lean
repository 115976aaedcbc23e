/-
  ManagementUnit.Proofs.Session.Course
  ────────────────────────────────
  What the steps of a session can come to.

  Reading an endpoint shows what the session and the driver keep, or reads the
  table.  Writing one asks for an action; an action makes one transaction, or one
  network access, or nothing, and what that came to makes one change to what the
  session keeps.  Everything that is proved about sessions starts from these
  relations, and not from the programs.

  Main results:
    * `reaches_read`    — a read is refused, or shows what is kept, or is one read of
      the table.
    * `reaches_perform` — an action brings one change, by asking for one thing.
    * `reaches_command` — the code of a command is the one that is kept afterwards.
    * `reaches_write`   — a write is refused or is one action.
-/
import ManagementUnit.Proofs.Session.Acceptance
import ManagementUnit.Proofs.Table.Course

namespace ManagementUnit

open Program (note reaches_bind_iff reaches_done_iff reaches_lift)

/-! ## §1. The driver underneath. -/

namespace Driver

variable {d d' : Driver} {es : List Event}

/-- A step on the table, run on a driver. -/
theorem run_onTable {α : Type} (step : StateT TableReader Program α) (d : Driver) :
    (onTable step).run d = step.run d.table >>= fun p => pure (p.1, { d with table := p.2 }) := by
  simp [onTable]

theorem reaches_onTable {α : Type} {step : StateT TableReader Program α} {a : α}
    (h : ((onTable step).run d).Reaches es (a, d')) :
    ∃ t', (step.run d.table).Reaches es (a, t') ∧ d' = { d with table := t' } := by
  rw [run_onTable] at h
  obtain ⟨fs, _, ⟨b, t'⟩, rfl, hstep, hdone⟩ := reaches_bind_iff.1 h
  obtain ⟨rfl, heq⟩ := reaches_done_iff.1 hdone
  cases heq
  rw [List.append_nil]
  exact ⟨t', hstep, rfl⟩

theorem run_readTable (d : Driver) (buffer : Bytes) :
    (readTable buffer).run d = (onTable (TableReader.read d.mailboxes buffer)).run d := by
  simp [readTable]

end Driver

/-! ## §2. Reading endpoints. -/

namespace Session

variable {s s' : Session} {es : List Event}

/-- What reading an endpoint can come to: it is not present, or it shows what the
session and the driver keep, or it is the table and read. -/
inductive Displayed (s : Session) (e : Endpoint) (buffer : Bytes) :
    List Event → Except EndpointError Nat × Bytes → Session → Prop where
  | absent (h : s.isPresent e = false) :
      Displayed s e buffer [] (.error (.unavailable e), buffer) s
  | rendered {rendering : Rendering} (hpresent : s.isPresent e = true)
      (h : s.rendering? e = some rendering) :
      Displayed s e buffer []
        (if (rendering.put buffer).1 then .ok rendering.bytes.length
          else .error (.bufferTooSmall e), (rendering.put buffer).2) s
  | table {es : List Event} {r : Except Failure Nat} {filled : Bytes} {d' : Driver}
      (hpresent : s.isPresent e = true) (h : s.rendering? e = none)
      (hread : ((Driver.readTable buffer).run s.driver).Reaches es ((r, filled), d')) :
      Displayed s e buffer es (r.mapError .driver, filled) { s with driver := d' }

theorem run_onDriver {α : Type} (step : StateT Driver Program α) (s : Session) :
    (onDriver step).run s =
      step.run s.driver >>= fun p => pure (p.1, { s with driver := p.2 }) := by
  simp [onDriver]

theorem run_read_of_absent {e : Endpoint} (h : s.isPresent e = false) (buffer : Bytes) :
    (Session.read e buffer).run s = pure ((.error (.unavailable e), buffer), s) := by
  unfold Session.read
  simp only [StateT.run_bind, StateT.run_get, pure_bind, h]
  rfl

/-- What is kept is shown without asking anyone. -/
theorem run_read_of_rendering {e : Endpoint} {rendering : Rendering}
    (hpresent : s.isPresent e = true) (h : s.rendering? e = some rendering) (buffer : Bytes) :
    (Session.read e buffer).run s =
      pure ((if (rendering.put buffer).1 then .ok rendering.bytes.length
        else .error (.bufferTooSmall e), (rendering.put buffer).2), s) := by
  unfold Session.read
  simp only [StateT.run_bind, StateT.run_get, pure_bind, hpresent, if_true, h]
  split <;> rfl

theorem reaches_read {e : Endpoint} {buffer : Bytes} {r : Except EndpointError Nat × Bytes}
    (h : ((Session.read e buffer).run s).Reaches es (r, s')) : Displayed s e buffer es r s' := by
  cases hpresent : s.isPresent e with
  | false =>
    rw [run_read_of_absent hpresent] at h
    obtain ⟨rfl, heq⟩ := reaches_done_iff.1 h
    cases heq
    exact .absent hpresent
  | true =>
    cases hrendering : s.rendering? e with
    | some rendering =>
      rw [run_read_of_rendering hpresent hrendering] at h
      obtain ⟨rfl, heq⟩ := reaches_done_iff.1 h
      cases heq
      exact .rendered hpresent hrendering
    | none =>
      unfold Session.read at h
      simp only [StateT.run_bind, StateT.run_get, pure_bind, hpresent, hrendering, if_true,
        run_onDriver] at h
      obtain ⟨_, _, ⟨r', s₁⟩, rfl, hdriver, hdone⟩ := reaches_bind_iff.1 h
      obtain ⟨rfl, heq⟩ := reaches_done_iff.1 hdone
      obtain ⟨fs, _, ⟨⟨r, filled⟩, d'⟩, rfl, hread, hkept⟩ := reaches_bind_iff.1 hdriver
      obtain ⟨rfl, heq'⟩ := reaches_done_iff.1 hkept
      cases heq'
      cases heq
      rw [List.append_nil, List.append_nil]
      exact .table hpresent hrendering hread

/-- Reading changes nothing but what the driver keeps of the table. -/
theorem Displayed.frame {e : Endpoint} {buffer : Bytes} {r : Except EndpointError Nat × Bytes}
    (h : Displayed s e buffer es r s') :
    ∃ t, s' = { s with driver := { s.driver with table := t } } := by
  cases h with
  | absent => exact ⟨s.driver.table, rfl⟩
  | rendered => exact ⟨s.driver.table, rfl⟩
  | table _ _ hread =>
    rw [Driver.run_readTable] at hread
    obtain ⟨t, -, rfl⟩ := Driver.reaches_onTable hread
    exact ⟨t, rfl⟩

end Session

/-! ## §3. Actions. -/

/-- What one operation changes of what a session keeps. -/
inductive Change where
  | nothing
  /-- Argument words were given. -/
  | given (words : Arguments)
  /-- A command succeeded with these words. -/
  | answered (words : Arguments)
  /-- A command failed and is reported under this code. -/
  | failed (code : UInt32)
  /-- A network access left this word. -/
  | accessed (word : UInt32)

/-- What is kept after a change. -/
def Slots.apply (kept : Slots) : Change → Slots
  | .nothing => kept
  | .given words => { kept with arguments := words }
  | .answered words => { kept with arguments := words, response := 0x01 }
  | .failed code => { kept with response := code }
  | .accessed word => { kept with networkResult := word }

/-- The code that the result of a transaction is reported under. -/
def codeOf : Except Failure Arguments → UInt32
  | .ok _ => 0x01
  | .error f => f.responseCode?.getD ResponseCode.failed

theorem codeOf_error {f : Failure} {code : UInt32} (h : f.responseCode? = some code) :
    codeOf (.error f) = code :=
  congrArg (Option.getD · ResponseCode.failed) h

namespace Session

/-- With `kept` to begin with, an action makes the requests `es` with the replies
they tell, and they come to this change. -/
inductive Action.Brings (m : Mailboxes) (kept : Slots) : Action → List Event → Change → Prop where
  | given (words : Arguments) : Brings m kept (.setArguments words) [] (.given words)
  /-- A command is one transaction, with the arguments that are kept. -/
  | answered {channel : Channel} {opcode : UInt32} {es : List Event} {words : Arguments}
      (h : (m.execute channel opcode kept.arguments).run.Reaches es (.ok words)) :
      Brings m kept (.command channel opcode) es (.answered words)
  /-- If it fails, its failure has a code. -/
  | failed {channel : Channel} {opcode : UInt32} {es : List Event} {f : Failure} {code : UInt32}
      (h : (m.execute channel opcode kept.arguments).run.Reaches es (.error f))
      (hcode : f.responseCode? = some code) :
      Brings m kept (.command channel opcode)
        (es ++ [⟨.note (.commandFailed channel opcode f), ()⟩]) (.failed code)
  | read {a v : UInt32} {es : List Event} (h : (Network.read m.window a).Reaches es (.ok v)) :
      Brings m kept (.access (.read a)) es (.accessed v)
  | unread {a : UInt32} {es : List Event} {fault : NetworkFault}
      (h : (Network.read m.window a).Reaches es (.error fault)) :
      Brings m kept (.access (.read a)) (es ++ [⟨.note (.networkReadFailed a (.bus fault)), ()⟩])
        .nothing
  | written {a v : UInt32} {es : List Event}
      (h : (Network.write m.window a v).Reaches es (.ok ())) :
      Brings m kept (.access (.write a v)) es (.accessed 0x01)
  | unwritten {a v : UInt32} {es : List Event} {fault : NetworkFault}
      (h : (Network.write m.window a v).Reaches es (.error fault)) :
      Brings m kept (.access (.write a v)) es (.accessed 0xF6)

variable {s s' : Session} {es : List Event}

/-- The change that the result of a transaction makes. -/
def changeOf : Except Failure Arguments → Change
  | .ok words => .answered words
  | .error f => .failed (codeOf (.error f))

/-- How a command ends: a failure is noted, and what the transaction came to is
kept and reported. -/
def conclude (s : Session) (channel : Channel) (opcode : UInt32)
    (outcome : Except Failure Arguments) : Program (UInt32 × Session) :=
  let slots := s.slots.apply (changeOf outcome)
  match outcome with
  | .ok _ => return (slots.response, { s with slots })
  | .error f => do
    note (.commandFailed channel opcode f)
    return (slots.response, { s with slots })

/-- However it ends, nothing more is accessed, and what the transaction came to is
reported under its code and makes one change. -/
theorem conducts_conclude (s : Session) (channel : Channel) (opcode : UInt32)
    (outcome : Except Failure Arguments) (w : Window) :
    (s.conclude channel opcode outcome).Conducts w fun as p =>
      as = [] ∧ p = (codeOf outcome, { s with slots := s.slots.apply (changeOf outcome) }) := by
  cases outcome with
  | ok words => exact Program.conducts_pure ⟨rfl, rfl⟩
  | error f => exact .afterNote (Program.conducts_pure ⟨rfl, rfl⟩)

theorem run_command (channel : Channel) (opcode : UInt32) (s : Session) :
    (command channel opcode).run s =
      (s.driver.mailboxes.execute channel opcode s.slots.arguments).run >>=
        s.conclude channel opcode := by
  have hlift : ∀ p : Program (Except Failure Arguments),
      (liftM p : SessionStep _).run s = p >>= fun outcome => pure (outcome, s) := fun _ => rfl
  simp only [command, modifySlots, StateT.run_bind, StateT.run_get, pure_bind, hlift, bind_assoc]
  congr 1
  funext outcome
  cases outcome <;> rfl

/-- A failure that firmware or bridge can cause has a code. -/
theorem exists_responseCode {f : Failure} (h : f.isInquiry = true) :
    ∃ code, f.responseCode? = some code := by
  cases f with
  | bus | timeout | rejected | unsupported => exact ⟨_, rfl⟩
  | shortBuffer | unmapped | unidentified => cases h

/-- The code of a command is the one that is kept afterwards. -/
theorem reaches_command {channel : Channel} {opcode code : UInt32}
    (h : ((command channel opcode).run s).Reaches es (code, s')) :
    ∃ c, Action.Brings s.driver.mailboxes s.slots (.command channel opcode) es c ∧
      s' = { s with slots := s.slots.apply c } ∧ code = s'.slots.response := by
  rw [run_command] at h
  obtain ⟨fs, gs, outcome, rfl, hexecute, hend⟩ := reaches_bind_iff.1 h
  cases outcome with
  | ok words =>
    obtain ⟨rfl, heq⟩ := reaches_done_iff.1 hend
    cases heq
    rw [List.append_nil]
    exact ⟨_, .answered hexecute, rfl, rfl⟩
  | error f =>
    -- a transaction only asks the firmware, and its failures have codes
    obtain ⟨code', hcode⟩ := exists_responseCode ((asks_execute _ _ _ _ _ hexecute).2 f rfl)
    have hchange : changeOf (.error f) = .failed code' :=
      congrArg Change.failed (codeOf_error hcode)
    cases hend with
    | ask hend =>
      obtain ⟨rfl, heq⟩ := reaches_done_iff.1 hend
      cases heq
      exact ⟨_, .failed hexecute hcode, by rw [hchange], rfl⟩

/-- The failure of a network access is its fault. -/
theorem reaches_mapError {α : Type} {p : Program (Except NetworkFault α)} {r : Except Failure α}
    (h : (Except.mapError Failure.bus <$> p).Reaches es r) :
    ∃ outcome, p.Reaches es outcome ∧ r = outcome.mapError .bus := by
  obtain ⟨fs, _, outcome, rfl, hp, hdone⟩ := reaches_bind_iff.1 h
  obtain ⟨rfl, heq⟩ := reaches_done_iff.1 hdone
  rw [List.append_nil]
  exact ⟨outcome, hp, heq⟩

/-- A step that begins by looking at the session. -/
theorem reaches_get {α : Type} {f : Session → SessionStep α} {a : α × Session} :
    ((get >>= f).run s).Reaches es a ↔ ((f s).run s).Reaches es a := Iff.rfl

theorem reaches_access {a : NetworkAccess}
    (h : ((access a).run s).Reaches es ((), s')) :
    ∃ c, Action.Brings s.driver.mailboxes s.slots (.access a) es c ∧
      s' = { s with slots := s.slots.apply c } := by
  cases a with
  | read address =>
    obtain ⟨fs, gs, r, rfl, hword, hend⟩ := reaches_lift (reaches_get.1 h)
    obtain ⟨outcome, hread, rfl⟩ := reaches_mapError hword
    cases outcome with
    | ok v =>
      obtain ⟨rfl, heq⟩ := reaches_done_iff.1 hend
      cases heq
      rw [List.append_nil]
      exact ⟨_, .read hread, rfl⟩
    | error fault =>
      cases hend with
      | ask hend =>
        obtain ⟨rfl, heq⟩ := reaches_done_iff.1 hend
        cases heq
        exact ⟨_, .unread hread, rfl⟩
  | write address value =>
    obtain ⟨fs, gs, r, rfl, hword, hend⟩ := reaches_lift (reaches_get.1 h)
    obtain ⟨outcome, hwrite, rfl⟩ := reaches_mapError hword
    cases outcome with
    | ok _ =>
      obtain ⟨rfl, heq⟩ := reaches_done_iff.1 hend
      cases heq
      rw [List.append_nil]
      exact ⟨_, .written hwrite, rfl⟩
    | error fault =>
      obtain ⟨rfl, heq⟩ := reaches_done_iff.1 hend
      cases heq
      rw [List.append_nil]
      exact ⟨_, .unwritten hwrite, rfl⟩

/-- An action brings one change, by asking for one thing. -/
theorem reaches_perform {action : Action} (h : ((perform action).run s).Reaches es ((), s')) :
    ∃ c, action.Brings s.driver.mailboxes s.slots es c ∧
      s' = { s with slots := s.slots.apply c } := by
  cases action with
  | setArguments words =>
    obtain ⟨rfl, heq⟩ := reaches_done_iff.1 h
    cases heq
    exact ⟨_, .given words, rfl⟩
  | command channel opcode =>
    obtain ⟨_, _, ⟨code, s₁⟩, rfl, hcommand, hdone⟩ := reaches_bind_iff.1 h
    obtain ⟨rfl, heq⟩ := reaches_done_iff.1 hdone
    cases heq
    obtain ⟨c, hc, hs, -⟩ := reaches_command hcommand
    rw [List.append_nil]
    exact ⟨c, hc, hs⟩
  | access a => exact reaches_access h

/-! ## §4. Writing endpoints. -/

/-- What writing bytes to an endpoint can come to: they are refused, or they are an
action as it is written, and it is done. -/
inductive Written (s : Session) (e : Endpoint) (input : Bytes) :
    List Event → Except EndpointError Nat → Session → Prop where
  | refused (h : ¬ (s.isPresent e = true ∧ input.length ∈ e.writeLengths)) :
      Written s e input [] (.error (e.refusal (s.isPresent e) input.length)) s
  | done {action : Action} {es : List Event} {c : Change} (hpresent : s.isPresent e = true)
      (haction : action.Spelled e input) (h : action.Brings s.driver.mailboxes s.slots es c) :
      Written s e input es (.ok input.length) { s with slots := s.slots.apply c }

theorem reaches_write {e : Endpoint} {input : Bytes} {r : Except EndpointError Nat}
    (h : ((write e input).run s).Reaches es (r, s')) : Written s e input es r s' := by
  by_cases haccepted : s.isPresent e = true ∧ input.length ∈ e.writeLengths
  · obtain ⟨action, haction⟩ := Action.exists_spelled_iff.2 haccepted.2
    rw [run_write_of_spelled haccepted.1 haction] at h
    obtain ⟨_, _, ⟨_, s₁⟩, rfl, hperform, hdone⟩ := reaches_bind_iff.1 h
    obtain ⟨rfl, heq⟩ := reaches_done_iff.1 hdone
    cases heq
    obtain ⟨c, hc, rfl⟩ := reaches_perform hperform
    rw [List.append_nil]
    exact .done haccepted.1 haction hc
  · rw [run_write_of_refused haccepted] at h
    obtain ⟨rfl, heq⟩ := reaches_done_iff.1 h
    cases heq
    exact .refused haccepted

end Session
end ManagementUnit
