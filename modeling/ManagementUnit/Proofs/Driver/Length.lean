/-
  ManagementUnit.Proofs.Driver.Length
  ────────────────────────────────
  The length of the table, from the start of the driver on.

  Starting the driver finds the geometry of the table before it tells its length.
  From then on the geometry is known, so whoever asks for the geometry, for the
  length or for a read is told of the same length, directly or through an endpoint
  of a session; the capabilities, which keep a copy of it, never change.  Commands
  and network accesses go past the table, and nothing that is written to an endpoint
  changes the driver.

  Main results:
    * `measured_of_start`  — a driver that tells a length has a table of that length.
    * `Measured.step`      — so it stays, and each use tells of that length.
    * `geometry_permanent` — the geometry of a table is found once.
-/
import ManagementUnit.Proofs.Driver.Course
import ManagementUnit.Proofs.Session.Course
import ManagementUnit.Proofs.Table.Permanence

namespace ManagementUnit

open Program (request note reaches_bind_iff reaches_done_iff reaches_lift)

/-! ## §1. Starting. -/

theorem Capabilities.Detected.measured {m : Mailboxes} {t t' : TableReader} {es : List Event}
    {capabilities : Capabilities} (h : Capabilities.Detected m t es capabilities t') {n : Nat}
    (hn : capabilities.tableLength? = some n) : t'.Measured n := by
  -- a search that breaks off tells no length
  cases h with
  | silent | untransferred | unformatted | unprepared => cases hn
  | @found _ _ _ _ _ _ g _ _ _ _ _ _ hprepared =>
    cases hn
    exact ⟨g, hprepared.reports.1 _ _ rfl, rfl⟩

/-- The capabilities tell the length of the table, and the table has it. -/
structure Driver.Measured (d : Driver) (n : Nat) : Prop where
  told : d.capabilities.tableLength? = some n
  table : d.table.Measured n

theorem measured_of_start {settings : Settings} {es : List Event} {d : Driver}
    (h : (Driver.start settings).run.Reaches es (.ok d)) {n : Nat}
    (hn : d.capabilities.tableLength? = some n) : d.Measured n := by
  cases reaches_start h with
  | started _ _ _ hdetected => exact ⟨hn, hdetected.measured hn⟩

/-! ## §2. Using the driver. -/

/-- What a running driver can be used for, directly or through the endpoints of a
session; `slots` is what the session keeps. -/
inductive DriverOperation where
  | geometry
  | length
  | read (buffer : Bytes)
  | transfer
  | close
  | readEndpoint (slots : Slots) (endpoint : Endpoint) (buffer : Bytes)
  | writeEndpoint (slots : Slots) (endpoint : Endpoint) (input : Bytes)
  /-- Anything that goes past the table: commands, network accesses, queries. -/
  | aside (program : Program Unit)

/-- How a use of the driver ends. -/
inductive DriverOutcome where
  | geometry (result : Except Failure Geometry)
  | length (result : Except Failure Nat)
  | read (result : Except Failure Nat) (filled : Bytes)
  | transfer (result : Except Failure Unit)
  | closed
  | readEndpoint (result : Except EndpointError Nat) (filled : Bytes)
  | writeEndpoint (result : Except EndpointError Nat)
  | aside

/-- The failure of the driver that is reported, through an endpoint or not. -/
def DriverOutcome.failure? : DriverOutcome → Option Failure
  | geometry (.error f) | length (.error f) | read (.error f) _ | transfer (.error f)
  | readEndpoint (.error (.driver f)) _ | writeEndpoint (.error (.driver f)) => some f
  | _ => none

namespace Driver

/-- A step of a session, from what the session keeps on. -/
def inSession {α : Type} (slots : Slots) (step : SessionStep α) : StateT Driver Program α :=
  fun d => do
    let (a, session) ← step.run ⟨d, slots⟩
    return (a, session.driver)

/-- Uses the driver. -/
def perform : DriverOperation → StateT Driver Program DriverOutcome
  | .geometry => return .geometry (← tableGeometry)
  | .length => return .length (← tableLength)
  | .read buffer => do
    let (result, filled) ← readTable buffer
    return .read result filled
  | .transfer => return .transfer (← transferTable)
  | .close => do
    close
    return .closed
  | .readEndpoint slots endpoint buffer => do
    let (result, filled) ← inSession slots (Session.read endpoint buffer)
    return .readEndpoint result filled
  | .writeEndpoint slots endpoint input =>
    return .writeEndpoint (← inSession slots (Session.write endpoint input))
  | .aside program => do
    (program : Program Unit)
    return .aside

variable {d d' : Driver} {es : List Event}

theorem run_tableGeometry (d : Driver) :
    tableGeometry.run d = (onTable (TableReader.geometry d.mailboxes).run).run d := by
  simp [tableGeometry]

theorem run_transferTable (d : Driver) :
    transferTable.run d = (onTable (TableReader.transfer d.mailboxes).run).run d := by
  simp [transferTable]

theorem reaches_inSession {α : Type} {slots : Slots} {step : SessionStep α} {a : α}
    (h : ((inSession slots step).run d).Reaches es (a, d')) :
    ∃ slots', (step.run ⟨d, slots⟩).Reaches es (a, ⟨d', slots'⟩) := by
  obtain ⟨fs, _, ⟨b, session⟩, rfl, hstep, hdone⟩ := reaches_bind_iff.1 h
  obtain ⟨rfl, heq⟩ := reaches_done_iff.1 hdone
  cases heq
  rw [List.append_nil]
  exact ⟨session.slots, hstep⟩

end Driver

/-! ## §3. Writing endpoints. -/

/-- Nothing that is written to an endpoint changes the driver, and no failure of the
driver is reported for it. -/
theorem Session.Written.frame {s s' : Session} {es : List Event} {e : Endpoint} {input : Bytes}
    {r : Except EndpointError Nat} (h : Session.Written s e input es r s') :
    s'.driver = s.driver ∧ ∀ f, r ≠ .error (.driver f) := by
  cases h with
  | refused =>
    refine ⟨rfl, ?_⟩
    intro f heq
    unfold Endpoint.refusal at heq
    repeat' split at heq
    all_goals cases heq
  | done => exact ⟨rfl, by simp⟩

/-! ## §4. What a running driver reports. -/

/-- A use of a running driver. -/
abbrev DriverUse := Use DriverOperation DriverOutcome Driver

/-- What a use tells of the table, it tells of a table of length `n`. -/
structure DriverUse.Reports (n : Nat) (u : DriverUse) : Prop where
  /-- The geometry is known, and nobody is asked. -/
  geometry : ∀ r, u.outcome = .geometry r → u.events = [] ∧ ∃ g, r = .ok g ∧ g.totalLength = n
  length : ∀ r, u.outcome = .length r → u.events = [] ∧ r = .ok n
  read : ∀ k filled, u.outcome = .read (.ok k) filled → k = n
  short : ∀ k, u.outcome.failure? = some (.shortBuffer k) → k = n
  tableEndpoint : ∀ slots buffer k filled, u.call = .readEndpoint slots .table buffer →
    u.outcome = .readEndpoint (.ok k) filled → k = n
  lengthEndpoint : ∀ slots buffer, u.call = .readEndpoint slots .tableLength buffer →
    u.outcome = if 8 ≤ buffer.length
      then .readEndpoint (.ok 8) (Bytes.overlay buffer (LongWord.toBytes n))
      else .readEndpoint (.error (.bufferTooSmall .tableLength)) buffer

namespace Driver

variable {d d' : Driver} {n : Nat} {es : List Event}

theorem Measured.geometry (hd : d.Measured n) {r : Except Failure Geometry}
    (h : (tableGeometry.run d).Reaches es (r, d')) :
    es = [] ∧ d' = d ∧ ∃ g, r = .ok g ∧ g.totalLength = n := by
  obtain ⟨g, hg, hn⟩ := hd.table
  rw [run_tableGeometry] at h
  obtain ⟨t', hstep, rfl⟩ := reaches_onTable h
  obtain ⟨rfl, rfl, rfl⟩ := (TableReader.comes_geometry hstep).eq_of_known hg
  exact ⟨rfl, rfl, g, rfl, hn⟩

theorem Measured.readTable (hd : d.Measured n) {buffer filled : Bytes} {r : Except Failure Nat}
    (h : ((readTable buffer).run d).Reaches es ((r, filled), d')) :
    d'.Measured n ∧ (∀ k, r = .ok k → k = n) ∧ ∀ k, r = .error (.shortBuffer k) → k = n := by
  obtain ⟨g, hg, hn⟩ := hd.table
  rw [run_readTable] at h
  obtain ⟨t', hstep, rfl⟩ := reaches_onTable h
  have hread := TableReader.reaches_read hstep
  -- a geometry that is known stays, whatever comes of the read
  have hg' : t'.located? = some g := by
    rw [(TableReader.Performed.read hread).located_eq, hg]
    rfl
  have hsame : ∀ k, t'.Measured k → k = n := by
    rintro k ⟨g', hg'', rfl⟩
    cases hg''.symm.trans hg'
    exact hn
  exact ⟨⟨hd.told, g, hg', hn⟩, fun k hk => hsame k (hread.reports.1 k hk),
    fun k hk => hsame k (hread.reports.2 k hk)⟩

theorem Measured.readEndpoint {slots : Slots} {e : Endpoint} {buffer filled : Bytes}
    {r : Except EndpointError Nat} {session : Session} (hd : d.Measured n)
    (h : Session.Displayed ⟨d, slots⟩ e buffer es (r, filled) session) :
    session.driver.Measured n ∧
      (∀ k, r = .error (.driver (.shortBuffer k)) → k = n) ∧
      (e = .table → ∀ k, r = .ok k → k = n) ∧
      (e = .tableLength → DriverOutcome.readEndpoint r filled = if 8 ≤ buffer.length
        then .readEndpoint (.ok 8) (Bytes.overlay buffer (LongWord.toBytes n))
        else .readEndpoint (.error (.bufferTooSmall .tableLength)) buffer) := by
  cases h with
  | absent habsent =>
    refine ⟨hd, by simp, by simp, ?_⟩
    rintro rfl
    simp [Session.isPresent, Endpoint.isPresent, Capabilities.hasTable, hd.told] at habsent
  | @rendered rendering hpresent hrendering =>
    refine ⟨hd, ?_, ?_, ?_⟩
    · intro k heq
      split at heq <;> cases heq
    · rintro rfl
      cases hrendering
    · rintro rfl
      simp only [Session.rendering?, hd.told, Option.getD_some, Option.some.injEq] at hrendering
      subst hrendering
      have hlength : (LongWord.toBytes n).length = 8 := rfl
      by_cases hfits : 8 ≤ buffer.length
      · simp [Rendering.put, Rendering.bytes, hlength, hfits]
      · simp [Rendering.put, hlength, hfits]
  | @table es r filled d' hpresent hnone hread =>
    obtain ⟨hd', hok, hshort⟩ := hd.readTable hread
    refine ⟨hd', ?_, ?_, ?_⟩
    · intro k heq
      cases r with
      | ok _ => cases heq
      | error f =>
        cases heq
        exact hshort k rfl
    · intro _ k heq
      cases r with
      | ok _ =>
        cases heq
        exact hok k rfl
      | error f => cases heq
    · rintro rfl
      cases hnone

/-- What one use of a running driver tells of the table, it tells of the length
that the capabilities tell; and it leaves it so. -/
theorem Measured.step {u : DriverUse} (hu : u.From perform d) (hd : d.Measured n) :
    u.after.Measured n ∧ u.Reports n := by
  rcases u with ⟨operation, events, outcome, after⟩
  cases operation with
  | geometry =>
    obtain ⟨r, rfl, hr⟩ := Program.reaches_packed hu
    obtain ⟨rfl, rfl, g, rfl, hn⟩ := hd.geometry hr
    refine ⟨hd, ?_⟩
    constructor <;> simp [DriverOutcome.failure?, hn]
  | length =>
    obtain ⟨r, rfl, hr⟩ := Program.reaches_packed hu
    obtain ⟨r', rfl, hr'⟩ := Program.reaches_packed hr
    obtain ⟨rfl, rfl, g, rfl, hn⟩ := hd.geometry hr'
    refine ⟨hd, ?_⟩
    constructor <;> simp [DriverOutcome.failure?, Except.map, hn]
  | read buffer =>
    obtain ⟨⟨r, filled⟩, rfl, hr⟩ := Program.reaches_packed hu
    obtain ⟨hd', hok, hshort⟩ := hd.readTable hr
    refine ⟨hd', by simp, by simp, ?_, ?_, by simp, by simp⟩
    · intro k filled' heq
      cases heq
      exact hok k rfl
    · intro k heq
      cases r with
      | ok _ => cases heq
      | error f =>
        cases heq
        exact hshort k rfl
  | transfer =>
    obtain ⟨r, rfl, hr⟩ := Program.reaches_packed hu
    rw [run_transferTable] at hr
    obtain ⟨t', hstep, rfl⟩ := reaches_onTable hr
    have htransfer := TableReader.comes_transfer hstep
    refine ⟨⟨hd.told, ?_⟩, by simp, by simp, by simp, ?_, by simp, by simp⟩
    · rw [htransfer.frame]
      exact hd.table
    · intro k heq
      cases htransfer with
      | stamped => cases heq
      | failed h =>
        cases heq
        cases h.isInquiry
  | close =>
    obtain ⟨_, rfl, hr⟩ := Program.reaches_packed hu
    obtain ⟨t', hstep, rfl⟩ := reaches_onTable hr
    refine ⟨⟨hd.told, ?_⟩, by simp, by simp, by simp, by simp [DriverOutcome.failure?], by simp,
      by simp⟩
    rw [(TableReader.reaches_close hstep).frame]
    exact hd.table
  | readEndpoint slots e buffer =>
    obtain ⟨⟨r, filled⟩, rfl, hr⟩ := Program.reaches_packed hu
    obtain ⟨slots', hread⟩ := reaches_inSession hr
    obtain ⟨hd', hshort, htable, hlength⟩ := hd.readEndpoint (Session.reaches_read hread)
    refine ⟨hd', by simp, by simp, by simp, ?_, ?_, ?_⟩
    · intro k heq
      apply hshort k
      cases r with
      | ok _ => cases heq
      | error error =>
        cases error <;> cases heq
        rfl
    · intro slots' buffer' k filled' hcall heq
      cases hcall
      cases heq
      exact htable rfl k rfl
    · intro slots' buffer' hcall
      cases hcall
      exact hlength rfl
  | writeEndpoint slots e input =>
    obtain ⟨r, rfl, hr⟩ := Program.reaches_packed hu
    obtain ⟨slots', hwrite⟩ := reaches_inSession hr
    obtain ⟨hsame, hdriver⟩ := (Session.reaches_write hwrite).frame
    cases hsame
    refine ⟨hd, by simp, by simp, by simp, ?_, by simp, by simp⟩
    intro k heq
    cases r with
    | ok _ => cases heq
    | error error =>
      cases error with
      | driver f => exact absurd rfl (hdriver f)
      | unavailable | readOnly | invalidSize | bufferTooSmall => cases heq
  | aside program =>
    obtain ⟨_, rfl, hr⟩ := Program.reaches_packed hu
    obtain ⟨_, _, _, rfl, -, hdone⟩ := reaches_bind_iff.1 hr
    cases hdone
    refine ⟨hd, ?_⟩
    constructor <;> simp [DriverOutcome.failure?]

end Driver

/-- The geometry of a table is found once, and tells all there is to tell of its
length: in every run of a table on any platform, and in every run of a driver that
told the length of the table when it was started. -/
theorem geometry_permanent {σ : Type} (platform : Platform σ) (s : σ) :
    (∀ (c : Codename) (interval : Duration) (calls : List TableCall) before u after,
      tableUses platform s c interval calls = before ++ u :: after →
        TableReader.Steadfast before u after) ∧
    ∀ (settings : Settings) (d : Driver) (n : Nat),
      ((Driver.start settings).run.run platform s).1 = .ok d →
      d.capabilities.tableLength? = some n →
      ∀ (operations : List DriverOperation) (s' : σ),
        ∀ u ∈ uses Driver.perform platform operations d s', DriverUse.Reports n u := by
  refine ⟨?_, ?_⟩
  · intro c interval calls before u after hsplit
    obtain ⟨t', hall⟩ := history_tableUses platform s c interval calls
    rw [hsplit] at hall
    exact TableReader.steadfast_of_history hall
  · intro settings d n hstart hn operations s'
    have hreach := Program.reaches_journal platform (Driver.start settings).run s
    rw [hstart] at hreach
    have hd := measured_of_start hreach hn
    obtain ⟨d', hall⟩ := @history_uses _ _ _ _ Driver.perform platform operations d s'
    exact (hall.forall_uses (P := fun d => d.Measured n) (fun _ _ _ hu hd => hd.step hu) hd).2

end ManagementUnit
