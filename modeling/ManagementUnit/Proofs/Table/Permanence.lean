/-
  ManagementUnit.Proofs.Table.Permanence
  ────────────────────────────────
  The geometry of a table is found once.

  Until a lookup succeeds, each use that needs the geometry asks the firmware for
  all of it again; from the first success on, nobody asks any more.  Then every use
  reports that geometry, or a length that is its length, and what is mapped is
  mapped where it says.  Closing the table does not change that.

  Main results:
    * `Performed.reports`    — what a use reports is of the geometry that is known.
    * `Performed.unasked`    — a use asks for no geometry that is known.
    * `asks_of_performed`    — it asks for all of one that is not.
    * `steadfast_of_history` — so it is for every use of a table.
-/
import ManagementUnit.Proofs.Table.Lookup

namespace ManagementUnit

/-! ## §1. What a use reports. -/

/-- Whether the geometry of the table is needed. -/
def TableOperation.locates : TableOperation → Bool
  | geometry | prepare | read _ => true
  | transfer | transferIfDue | close => false

/-- The geometry that is reported. -/
def TableOutcome.geometry? : TableOutcome → Option Geometry
  | geometry (.ok g) | prepare (.ok g) => some g
  | _ => none

/-- The events do not begin with a question to the firmware: nothing happens, or
there is a note and that is all, or the clock is read first. -/
inductive Unasked : List Event → Prop where
  | nothing : Unasked []
  | refused (d : Diagnostic) : Unasked [⟨.note d, ()⟩]
  | clocked (now : Duration) (rest : List Event) : Unasked (⟨.now, now⟩ :: rest)

/-- The use begins with a whole query for the geometry, and ends with it if it
fails. -/
def TableUse.Asks (u : TableUse) : Prop :=
  ∃ es fs r, u.events = es ++ fs ∧ u.call.mailboxes.tableGeometry.run.Reaches es r ∧
    ∀ f, r = .error f → fs = [] ∧ u.outcome.failure? = some f

namespace TableReader

/-- The geometry of the table is known, and it is `n` bytes long. -/
def Measured (t : TableReader) (n : Nat) : Prop := ∃ g, t.located? = some g ∧ g.totalLength = n

variable {m : Mailboxes} {t t' : TableReader} {es : List Event}

theorem Sent.isInquiry {c : Codename} {f : Failure} (h : Sent m c es (.error f)) :
    f.isInquiry = true := by
  cases h with
  | lacking => rfl
  | failed h hes hf => exact hf

theorem LookedUp.isInquiry {f : Failure} (h : LookedUp m t es (.error f) t') :
    f.isInquiry = true := by
  cases h with
  | failed h hes hf => exact hf

theorem Throttled.isInquiry {f : Failure} (h : Throttled m t es (.error f) t') :
    f.isInquiry = true := by
  cases h with
  | failed hstale h => exact h.isInquiry

theorem Renewed.ne_short {g : Geometry} {r : Except Failure TableMapping}
    (h : Renewed m g t es r t') (n : Nat) : r ≠ .error (.shortBuffer n) := by
  rintro rfl
  cases h with
  | untransferred h => cases h.isInquiry
  | mapped h hmap =>
    cases hmap with
    | failed hnone hes => cases hes

/-- What comes of getting a table ready is about the geometry that it knows. -/
theorem Prepared.reports {room? : Option Nat} {r : Except Failure (Geometry × TableMapping)}
    (h : Prepared m room? t es r t') :
    (∀ g mapping, r = .ok (g, mapping) → t'.located? = some g) ∧
      ∀ n, r = .error (.shortBuffer n) → t'.Measured n := by
  cases h with
  | closed => simp
  | unlocated hopen h =>
    refine ⟨by simp, ?_⟩
    intro n heq
    cases heq
    cases h.isInquiry
  | short hopen h =>
    refine ⟨by simp, ?_⟩
    intro n heq
    cases heq
    exact ⟨_, h.located, rfl⟩
  | @renewed es fs g t₁ t' r hopen h hroom hrenewed =>
    have hg : t'.located? = some g := hrenewed.unlocated.2.trans h.located
    cases r with
    | ok mapping =>
      refine ⟨?_, by simp [Except.map]⟩
      intro g' mapping' heq
      cases heq
      exact hg
    | error f =>
      refine ⟨by simp [Except.map], ?_⟩
      intro n heq
      cases heq
      exact absurd rfl (hrenewed.ne_short n)

theorem Copied.reports {buffer filled : Bytes} {r : Except Failure Nat}
    (h : Copied m buffer t es (r, filled) t') :
    (∀ n, r = .ok n → t'.Measured n) ∧ ∀ n, r = .error (.shortBuffer n) → t'.Measured n := by
  cases h with
  | failed h =>
    refine ⟨by simp, ?_⟩
    intro n heq
    cases heq
    exact h.reports.2 n rfl
  | copied h hfs =>
    refine ⟨?_, by simp⟩
    intro n heq
    cases heq
    exact ⟨_, h.reports.1 _ _ rfl, rfl⟩

/-- What a use reports is of the geometry that the table knows. -/
structure Reports (outcome : TableOutcome) (t : TableReader) : Prop where
  geometry : ∀ g, outcome.geometry? = some g → t.located? = some g
  read : ∀ n filled, outcome = .read (.ok n) filled → t.Measured n
  short : ∀ n, outcome.failure? = some (.shortBuffer n) → t.Measured n

theorem Performed.reports {operation : TableOperation} {outcome : TableOutcome}
    (h : Performed m t operation es outcome t') : Reports outcome t' := by
  cases h with
  | @geometry es r t' h =>
    cases r with
    | ok g =>
      refine ⟨?_, by simp, by simp [TableOutcome.failure?]⟩
      intro g' heq
      cases heq
      exact h.located
    | error f =>
      refine ⟨by simp [TableOutcome.geometry?], by simp, ?_⟩
      intro n heq
      cases heq
      cases h.isInquiry
  | @transfer es r t' h =>
    refine ⟨by simp [TableOutcome.geometry?], by simp, ?_⟩
    intro n heq
    cases h with
    | stamped => cases heq
    | failed h =>
      cases heq
      cases h.isInquiry
  | @transferIfDue es r t' h =>
    refine ⟨by simp [TableOutcome.geometry?], by simp, ?_⟩
    intro n heq
    cases r with
    | ok _ => cases heq
    | error f =>
      cases heq
      cases h.isInquiry
  | @prepare es r t' h =>
    refine ⟨?_, by simp, ?_⟩
    · intro g heq
      cases r with
      | ok located =>
        cases heq
        exact h.reports.1 _ _ rfl
      | error f => cases heq
    · intro n heq
      cases r with
      | ok located => cases heq
      | error f =>
        cases heq
        exact h.reports.2 n rfl
  | @read buffer filled es r t' h =>
    refine ⟨by simp [TableOutcome.geometry?], ?_, ?_⟩
    · intro n filled' heq
      cases heq
      exact h.reports.1 n rfl
    · intro n heq
      cases r with
      | ok _ => cases heq
      | error f =>
        cases heq
        exact h.reports.2 n rfl
  | close h => exact ⟨by simp [TableOutcome.geometry?], by simp, by simp [TableOutcome.failure?]⟩

/-! ## §2. What a use asks for. -/

theorem LookedUp.eq_of_known {r : Except Failure Geometry} {g : Geometry}
    (h : LookedUp m t es r t') (hg : t.located? = some g) : es = [] ∧ r = .ok g ∧ t' = t := by
  cases h with
  | known h =>
    cases h.symm.trans hg
    exact ⟨rfl, rfl, rfl⟩
  | found hnone | failed hnone => cases hnone.symm.trans hg

theorem Renewed.clocked {g : Geometry} {r : Except Failure TableMapping}
    (h : Renewed m g t es r t') : ∃ now rest, es = ⟨.now, now⟩ :: rest := by
  cases h with
  | untransferred h =>
    cases h with
    | failed => exact ⟨_, _, rfl⟩
  | mapped h hmap => cases h <;> exact ⟨_, _, rfl⟩

theorem Prepared.unasked {room? : Option Nat} {r : Except Failure (Geometry × TableMapping)}
    {g : Geometry} (h : Prepared m room? t es r t') (hg : t.located? = some g) : Unasked es := by
  cases h with
  | closed => exact .refused _
  | unlocated hopen h =>
    obtain ⟨rfl, -⟩ := h.eq_of_known hg
    exact .nothing
  | short hopen h =>
    obtain ⟨rfl, -⟩ := h.eq_of_known hg
    exact .refused _
  | renewed hopen h hroom hrenewed =>
    obtain ⟨rfl, -⟩ := h.eq_of_known hg
    obtain ⟨now, rest, rfl⟩ := hrenewed.clocked
    exact .clocked now rest

/-- A use asks for no geometry that is known. -/
theorem Performed.unasked {operation : TableOperation} {outcome : TableOutcome} {g : Geometry}
    (h : Performed m t operation es outcome t') (hg : t.located? = some g)
    (hlocates : operation.locates = true) : Unasked es := by
  cases h with
  | transfer | transferIfDue | close => cases hlocates
  | geometry h =>
    obtain ⟨rfl, -⟩ := h.eq_of_known hg
    exact .nothing
  | prepare h => exact h.unasked hg
  | read h =>
    cases h with
    | failed h => exact h.unasked hg
    | copied h hfs =>
      obtain ⟨fs, gs, t₁, rfl, hlookup, hrenewed⟩ := h.ready
      obtain ⟨rfl, -⟩ := hlookup.eq_of_known hg
      obtain ⟨now, rest, rfl⟩ := hrenewed.clocked
      exact .clocked now _

theorem LookedUp.asks {r : Except Failure Geometry} (h : LookedUp m t es r t')
    (hnone : t.located? = none) : m.tableGeometry.run.Reaches es r := by
  cases h with
  | known h => cases hnone.symm.trans h
  | found h hes hreach => exact hreach
  | failed h hes hf hreach => exact hreach

theorem Prepared.asks {room? : Option Nat} {r : Except Failure (Geometry × TableMapping)}
    (h : Prepared m room? t es r t') (hnone : t.located? = none) (hopen : t.closed = false) :
    ∃ fs gs r', es = fs ++ gs ∧ m.tableGeometry.run.Reaches fs r' ∧
      ∀ f, r' = .error f → gs = [] ∧ r = .error f := by
  cases h with
  | closed hclosed => cases hopen.symm.trans hclosed
  | unlocated _ h =>
    refine ⟨_, [], _, (List.append_nil _).symm, h.asks hnone, ?_⟩
    intro f heq
    cases heq
    exact ⟨rfl, rfl⟩
  | short _ h =>
    refine ⟨_, _, _, rfl, h.asks hnone, ?_⟩
    intro f heq
    cases heq
  | renewed _ h hroom hrenewed =>
    refine ⟨_, _, _, rfl, h.asks hnone, ?_⟩
    intro f heq
    cases heq

/-- A use asks for all of a geometry that is not known. -/
theorem asks_of_performed {u : TableUse} {t : TableReader} (hu : u.From perform t)
    (hnone : t.located? = none) (hlocates : u.call.operation.locates = true)
    (hopen : u.call.operation = .geometry ∨ t.closed = false) : u.Asks := by
  rcases u with ⟨⟨m, operation⟩, events, outcome, after⟩
  have h := hu.performed
  cases h with
  | transfer | transferIfDue | close => cases hlocates
  | geometry h =>
    refine ⟨_, [], _, (List.append_nil _).symm, h.asks hnone, ?_⟩
    rintro f rfl
    exact ⟨rfl, rfl⟩
  | prepare h =>
    obtain ⟨fs, gs, r', heq, hreach, hfailed⟩ := h.asks hnone (hopen.resolve_left nofun)
    refine ⟨fs, gs, r', heq, hreach, ?_⟩
    intro f hf
    obtain ⟨hgs, rfl⟩ := hfailed f hf
    exact ⟨hgs, rfl⟩
  | read h =>
    have hunclosed : t.closed = false := hopen.resolve_left nofun
    cases h with
    | failed h =>
      obtain ⟨fs, gs, r', heq, hreach, hfailed⟩ := h.asks hnone hunclosed
      refine ⟨fs, gs, r', heq, hreach, ?_⟩
      intro f hf
      obtain ⟨hgs, hr⟩ := hfailed f hf
      cases hr
      exact ⟨hgs, rfl⟩
    | @copied es fs' g mapping filled t' h hfs =>
      obtain ⟨fs, gs, r', rfl, hreach, hfailed⟩ := h.asks hnone hunclosed
      refine ⟨fs, gs ++ fs', r', List.append_assoc _ _ _, hreach, ?_⟩
      intro f hf
      cases (hfailed f hf).2

/-! ## §3. All uses. -/

theorem Performed.answered {outcome : TableOutcome} {g : Geometry}
    (h : Performed m t .geometry es outcome t') (hg : t.located? = some g) :
    es = [] ∧ outcome = .geometry (.ok g) := by
  cases h with
  | geometry h =>
    obtain ⟨rfl, rfl, -⟩ := h.eq_of_known hg
    exact ⟨rfl, rfl⟩

/-- How a use of a table stands to what was found of its geometry; `before` and
`after` are the uses before and after it. -/
structure Steadfast (before : List TableUse) (u : TableUse) (after : List TableUse) : Prop where
  /-- The table knows the first geometry that was found, if any was. -/
  known : u.after.located? = firstLocated? (journal (before ++ [u]))
  /-- It knows no other one ever after. -/
  permanent : ∀ g, u.after.located? = some g → ∀ v ∈ after, v.after.located? = some g
  reports : Reports u.outcome u.after
  /-- What is mapped is mapped where the geometry says. -/
  mapped : u.after.regions = [] ∨
    ∃ g, u.after.located? = some g ∧ u.after.regions.map Region.extent = g.extents
  /-- Asked for the geometry it knows, the table asks nobody. -/
  answered : ∀ g, firstLocated? (journal before) = some g → u.call.operation = .geometry →
    u.events = [] ∧ u.outcome = .geometry (.ok g)
  /-- Nor does any other use that needs a geometry that is known. -/
  unasked : ∀ g, firstLocated? (journal before) = some g → u.call.operation.locates = true →
    Unasked u.events
  /-- Until it is known, each use that needs it asks anew; but a table that was closed
  is asked for nothing else. -/
  asks : firstLocated? (journal before) = none → u.call.operation.locates = true →
    (u.call.operation = .geometry ∨ ∀ v ∈ before, v.call.operation.isClose = false) → u.Asks

theorem steadfast_of_history {c : Codename} {interval : Duration} {before after : List TableUse}
    {u : TableUse} (h : History perform (fresh c interval) (before ++ u :: after) t') :
    Steadfast before u after := by
  obtain ⟨t₁, hbefore, hu, hafter⟩ := h.split
  have huses := hbefore.concat hu
  have hknown : t₁.located? = firstLocated? (journal before) := located_of_history hbefore
  refine ⟨located_of_history huses, ?_, hu.performed.reports, (sound_of_history huses).regions_eq,
    ?_, ?_, ?_⟩
  · intro g hg
    refine hafter.forall_after (P := fun t => t.located? = some g) ?_ hg
    intro t v _ hv ht
    rw [hv.performed.located_eq, ht]
    rfl
  · intro g hg hgeometry
    have hperformed := hu.performed
    rw [hgeometry] at hperformed
    exact hperformed.answered (hknown.trans hg)
  · intro g hg hlocates
    exact hu.performed.unasked (hknown.trans hg) hlocates
  · intro hnone hlocates hopen
    refine asks_of_performed hu (hknown.trans hnone) hlocates (hopen.imp_right ?_)
    exact unclosed_of_history hbefore

end TableReader
end ManagementUnit
