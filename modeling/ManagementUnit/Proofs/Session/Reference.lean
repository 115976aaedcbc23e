/-
  ManagementUnit.Proofs.Session.Reference
  ────────────────────────────────
  A session as the sum of its changes.

  Three things are kept between the operations on a session, and four endpoints
  share them: what one command leaves behind is what the next one runs with.  Still
  each operation makes one change at most, and what is kept is what the changes so
  far add up to, from six zero words, a success and a zero on.  Which change an
  operation makes depends on nothing but what is kept and what the platform
  answered, and a write is refused only if its endpoint is not present or never takes so
  many bytes.

  Main results:
    * `Use.From.follows` — an operation makes one change, and shows what was kept
      before it.
    * `slots_fold`       — so it is for every operation of a session, with what the
      changes before it add up to.
-/
import ManagementUnit.Proofs.History
import ManagementUnit.Proofs.Session.Course

namespace ManagementUnit

/-! ## §1. Operations. -/

/-- What a session can be used for. -/
inductive SessionOperation where
  | read (endpoint : Endpoint) (buffer : Bytes)
  | write (endpoint : Endpoint) (input : Bytes)
  /-- An action that is asked for directly, and not in bytes. -/
  | act (action : Session.Action)

/-- How a use of a session ends. -/
inductive SessionOutcome where
  | read (result : Except EndpointError Nat) (filled : Bytes)
  | write (result : Except EndpointError Nat)
  | acted

/-- Uses a session. -/
def Session.use : SessionOperation → SessionStep SessionOutcome
  | .read e buffer => do
    let (result, filled) ← Session.read e buffer
    return .read result filled
  | .write e input => return .write (← Session.write e input)
  | .act action => do
    Session.perform action
    return .acted

/-- A use of a session. -/
abbrev SessionUse := Use SessionOperation SessionOutcome Session

/-- The uses that a new session is put to on a platform, one operation after the
other. -/
def sessionUses {σ : Type} (platform : Platform σ) (x : σ) (d : Driver)
    (operations : List SessionOperation) : List SessionUse :=
  uses Session.use platform operations (Session.start d) x

/-! ## §2. The reference. -/

/-- What several changes add up to. -/
def Change.sum (changes : List Change) : Slots :=
  changes.foldl Slots.apply ⟨.zero, 0x01, 0⟩

/-- How an endpoint shows what is kept; `none` if it shows something else. -/
def Slots.shown? (kept : Slots) : Endpoint → Option Bytes
  | .arguments => some kept.arguments.toBytes
  | .mp1Command | .rsmuCommand => some (Word.toBytes kept.response)
  | .network => some (Word.toBytes kept.networkResult)
  | _ => none

/-- With `kept` to begin with, an operation that asks for `es` and ends so makes this
change. -/
inductive SessionOperation.Makes (m : Mailboxes) (capabilities : Capabilities) (kept : Slots) :
    SessionOperation → List Event → SessionOutcome → Change → Prop where
  /-- Showing changes nothing. -/
  | shown {e : Endpoint} {buffer filled : Bytes} {es : List Event} {r : Except EndpointError Nat} :
      Makes m capabilities kept (.read e buffer) es (.read r filled) .nothing
  /-- What cannot be taken is refused, and nobody is asked for anything. -/
  | refused {e : Endpoint} {input : Bytes}
      (h : ¬ (e.isPresent capabilities = true ∧ input.length ∈ e.writeLengths)) :
      Makes m capabilities kept (.write e input) []
        (.write (.error (e.refusal (e.isPresent capabilities) input.length))) .nothing
  | taken {e : Endpoint} {input : Bytes} {action : Session.Action} {es : List Event} {c : Change}
      (hpresent : e.isPresent capabilities = true) (haction : action.Spelled e input)
      (h : action.Brings m kept es c) :
      Makes m capabilities kept (.write e input) es (.write (.ok input.length)) c
  | acted {action : Session.Action} {es : List Event} {c : Change} (h : action.Brings m kept es c) :
      Makes m capabilities kept (.act action) es .acted c

/-- The use `u` makes the change `c` to what was kept before it, and shows no more
and no less than that. -/
structure SessionUse.Follows (m : Mailboxes) (capabilities : Capabilities) (kept : Slots)
    (u : SessionUse) (c : Change) : Prop where
  makes : u.call.Makes m capabilities kept u.events u.outcome c
  after : u.after.slots = kept.apply c
  /-- Nobody is asked for what is kept, and a buffer that is too short stays as it
  is. -/
  shows : ∀ e buffer bytes, u.call = .read e buffer → e.isPresent capabilities = true →
    kept.shown? e = some bytes →
    u.events = [] ∧ u.outcome = if bytes.length ≤ buffer.length
      then .read (.ok bytes.length) (Bytes.overlay buffer bytes)
      else .read (.error (.bufferTooSmall e)) buffer

/-! ## §3. One operation. -/

open Session

/-- An endpoint that shows what is kept shows it in bytes. -/
theorem Session.rendering?_of_shown {s : Session} {e : Endpoint} {bytes : Bytes}
    (h : s.slots.shown? e = some bytes) : s.rendering? e = some (.binary bytes) := by
  cases e <;> cases h <;> rfl

/-- A value that is shown in bytes goes into the buffer whole or not at all. -/
theorem Session.Displayed.binary {s s' : Session} {e : Endpoint} {buffer filled bytes : Bytes}
    {es : List Event} {r : Except EndpointError Nat} (h : Displayed s e buffer es (r, filled) s')
    (hpresent : s.isPresent e = true) (hbytes : s.rendering? e = some (.binary bytes)) :
    es = [] ∧ SessionOutcome.read r filled = if bytes.length ≤ buffer.length
      then .read (.ok bytes.length) (Bytes.overlay buffer bytes)
      else .read (.error (.bufferTooSmall e)) buffer := by
  cases h with
  | absent habsent => exact absurd hpresent (habsent ▸ Bool.false_ne_true)
  | rendered _ hrendering =>
    obtain rfl := Option.some.inj (hrendering.symm.trans hbytes)
    refine ⟨rfl, ?_⟩
    by_cases hfits : bytes.length ≤ buffer.length
    · simp [Rendering.put, Rendering.bytes, hfits]
    · simp [Rendering.put, hfits]
  | table _ hnone => cases hnone.symm.trans hbytes

/-- An operation makes one change, and shows what was kept before it.  Mailboxes and
capabilities stay. -/
theorem Use.From.follows {s : Session} {u : SessionUse} (h : u.From Session.use s) :
    (∃ c, u.Follows s.driver.mailboxes s.driver.capabilities s.slots c) ∧
      u.after.driver.mailboxes = s.driver.mailboxes ∧
      u.after.driver.capabilities = s.driver.capabilities := by
  rcases u with ⟨operation, events, outcome, after⟩
  cases operation with
  | read e buffer =>
    obtain ⟨⟨r, filled⟩, rfl, hread⟩ := Program.reaches_packed h
    have hdisplayed := reaches_read hread
    obtain ⟨t, rfl⟩ := hdisplayed.frame
    refine ⟨⟨.nothing, .shown, rfl, ?_⟩, rfl, rfl⟩
    rintro _ _ bytes ⟨⟩ hpresent hshown
    exact hdisplayed.binary hpresent (rendering?_of_shown hshown)
  | write e input =>
    obtain ⟨r, rfl, hwrite⟩ := Program.reaches_packed h
    have hwritten : Written s e input events r after := reaches_write hwrite
    cases hwritten with
    | refused hrefused => exact ⟨⟨.nothing, .refused hrefused, rfl, nofun⟩, rfl, rfl⟩
    | done hpresent haction hbrings =>
      exact ⟨⟨_, .taken hpresent haction hbrings, rfl, nofun⟩, rfl, rfl⟩
  | act action =>
    obtain ⟨_, rfl, hperform⟩ := Program.reaches_packed h
    obtain ⟨c, hbrings, rfl⟩ := reaches_perform hperform
    exact ⟨⟨c, .acted hbrings, rfl, nofun⟩, rfl, rfl⟩

/-! ## §4. Operations in a row. -/

/-- Each operation follows what the changes before it add up to. -/
theorem follows_of_history {s s' : Session} {us : List SessionUse}
    (h : History Session.use s us s') :
    ∃ changes : List Change, changes.length = us.length ∧
      ∀ before u after, us = before ++ u :: after →
        ∃ c, changes[before.length]? = some c ∧
          u.Follows s.driver.mailboxes s.driver.capabilities
            ((changes.take before.length).foldl Slots.apply s.slots) c := by
  -- by induction on the history: what the first change leaves is where the rest begins
  induction h with
  | nil =>
    refine ⟨[], rfl, ?_⟩
    intro before u after hsplit
    simp at hsplit
  | @cons s s' v us hv _ ih =>
    obtain ⟨⟨c, hc⟩, hmailboxes, hcapabilities⟩ := hv.follows
    obtain ⟨changes, hlength, hrest⟩ := ih
    refine ⟨c :: changes, congrArg (· + 1) hlength, ?_⟩
    intro before u after hsplit
    cases before with
    | nil =>
      obtain ⟨rfl, -⟩ := List.cons_eq_cons.1 hsplit
      exact ⟨c, rfl, hc⟩
    | cons w before =>
      obtain ⟨rfl, htail⟩ := List.cons_eq_cons.1 hsplit
      obtain ⟨c', hc', hu⟩ := hrest before u after htail
      rw [hmailboxes, hcapabilities, hc.after] at hu
      exact ⟨c', hc', hu⟩

/-- However a platform answers, what a session keeps after any operations is what
their changes add up to, one change for each.  Which one it is depends on what was
kept before and on what the platform answered, and the endpoints show what was
kept. -/
theorem slots_fold {σ : Type} (platform : Platform σ) (x : σ) (d : Driver)
    (operations : List SessionOperation) :
    (sessionUses platform x d operations).map Use.call = operations ∧
      ∃ changes : List Change, changes.length = operations.length ∧
        ∀ before u after, sessionUses platform x d operations = before ++ u :: after →
          ∃ c, changes[before.length]? = some c ∧
            SessionUse.Follows d.mailboxes d.capabilities
              (Change.sum (changes.take before.length)) u c := by
  have hcalls : (sessionUses platform x d operations).map Use.call = operations :=
    map_call_uses platform operations _ x
  obtain ⟨s', hall⟩ :=
    @history_uses _ _ _ _ Session.use platform operations (Session.start d) x
  obtain ⟨changes, hlength, hfollows⟩ := follows_of_history hall
  have hcount := congrArg List.length hcalls
  rw [List.length_map] at hcount
  exact ⟨hcalls, changes, hlength.trans hcount, hfollows⟩

end ManagementUnit
