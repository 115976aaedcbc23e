/-
  ManagementUnit.Proofs.Table.Uses
  ────────────────────────────────
  What one table can be used for, and what a use can come to.

  A table is asked for its geometry, made to be transferred, made ready, read and
  closed, in any order and as often as its user likes; dropping it is closing it
  once more.  Each call comes with mailboxes of its own.

  Main results:
    * `Use.From.performed` — a use comes to one of these things and to nothing else.
    * `Performed.sound`    — whatever comes of a use, the table maps what it located,
      and nothing once it was closed.
-/
import ManagementUnit.Proofs.History
import ManagementUnit.Proofs.Table.Course

namespace ManagementUnit

/-! ## §1. Operations. -/

/-- What a table can be used for. -/
inductive TableOperation where
  | geometry
  | transfer
  | transferIfDue
  | prepare
  | read (buffer : Bytes)
  | close

/-- Whether a table is closed. -/
def TableOperation.isClose : TableOperation → Bool
  | close => true
  | _ => false

/-- A use of a table, and the mailboxes that go with it. -/
structure TableCall where
  mailboxes : Mailboxes
  operation : TableOperation

/-- How a use of a table ends. -/
inductive TableOutcome where
  | geometry (result : Except Failure Geometry)
  | transfer (result : Except Failure Unit)
  | transferIfDue (result : Except Failure Bool)
  | prepare (result : Except Failure Geometry)
  | read (result : Except Failure Nat) (filled : Bytes)
  | closed

/-- The failure that is reported. -/
def TableOutcome.failure? : TableOutcome → Option Failure
  | geometry (.error f) | transfer (.error f) | transferIfDue (.error f) | prepare (.error f)
  | read (.error f) _ => some f
  | _ => none

/-- How a read ends. -/
def TableOutcome.read? : TableOutcome → Option (Except Failure Nat)
  | read r _ => some r
  | _ => none

theorem TableOutcome.read?_eq_some_iff {outcome : TableOutcome} {r : Except Failure Nat} :
    outcome.read? = some r ↔ ∃ filled, outcome = .read r filled := by
  constructor
  · intro h
    cases outcome with
    | read r' filled =>
      cases h
      exact ⟨filled, rfl⟩
    | geometry | transfer | transferIfDue | prepare | closed => cases h
  · rintro ⟨filled, rfl⟩
    rfl

theorem TableOutcome.failure?_read {r : Except Failure Nat} {filled : Bytes} {f : Failure} :
    (TableOutcome.read r filled).failure? = some f ↔ r = .error f := by
  cases r with
  | ok n => exact iff_of_false nofun nofun
  | error e =>
    rw [failure?, Option.some_inj, Except.error.injEq]

namespace TableReader

/-- A table that nothing is known of yet. -/
def fresh (codename : Codename) (interval : Duration) : TableReader := { codename, interval }

/-- Uses a table. -/
def perform (call : TableCall) : StateT TableReader Program TableOutcome := do
  let m := call.mailboxes
  match call.operation with
  | .geometry => return .geometry (← (geometry m).run)
  | .transfer => return .transfer (← (transfer m).run)
  | .transferIfDue => return .transferIfDue (← (transferIfDue m).run)
  | .prepare => return .prepare (← (prepare m).run)
  | .read buffer =>
    let (result, filled) ← read m buffer
    return .read result filled
  | .close =>
    close
    return .closed

/-- What using a table can come to. -/
inductive Performed (m : Mailboxes) (t : TableReader) :
    TableOperation → List Event → TableOutcome → TableReader → Prop where
  | geometry {es : List Event} {r : Except Failure Geometry} {t' : TableReader}
      (h : LookedUp m t es r t') : Performed m t .geometry es (.geometry r) t'
  | transfer {es : List Event} {r : Except Failure Unit} {t' : TableReader}
      (h : Transferred m t es r t') : Performed m t .transfer es (.transfer r) t'
  | transferIfDue {es : List Event} {r : Except Failure Bool} {t' : TableReader}
      (h : Throttled m t es r t') : Performed m t .transferIfDue es (.transferIfDue r) t'
  | prepare {es : List Event} {r : Except Failure (Geometry × TableMapping)} {t' : TableReader}
      (h : Prepared m none t es r t') : Performed m t .prepare es (.prepare (r.map Prod.fst)) t'
  | read {buffer filled : Bytes} {es : List Event} {r : Except Failure Nat} {t' : TableReader}
      (h : Copied m buffer t es (r, filled) t') :
      Performed m t (.read buffer) es (.read r filled) t'
  | close {es : List Event} {t' : TableReader} (h : Closed t es t') :
      Performed m t .close es .closed t'

end TableReader

/-- A use of a table. -/
abbrev TableUse := Use TableCall TableOutcome TableReader

open TableReader

/-! ## §2. Uses. -/

/-- A use of a table comes to one of these things and to nothing else. -/
theorem Use.From.performed {t : TableReader} {u : TableUse} (h : u.From perform t) :
    Performed u.call.mailboxes t u.call.operation u.events u.outcome u.after := by
  rcases u with ⟨⟨m, operation⟩, events, outcome, after⟩
  cases operation with
  | geometry =>
    obtain ⟨r, rfl, hr⟩ := Program.reaches_packed h
    exact .geometry (comes_geometry hr)
  | transfer =>
    obtain ⟨r, rfl, hr⟩ := Program.reaches_packed h
    exact .transfer (comes_transfer hr)
  | transferIfDue =>
    obtain ⟨r, rfl, hr⟩ := Program.reaches_packed h
    exact .transferIfDue (comes_transferIfDue hr)
  | prepare =>
    obtain ⟨r, rfl, hr⟩ := Program.reaches_packed h
    obtain ⟨r', hr', rfl⟩ := comes_prepare hr
    exact .prepare hr'
  | read buffer =>
    obtain ⟨⟨r, filled⟩, rfl, hr⟩ := Program.reaches_packed h
    exact .read (reaches_read hr)
  | close =>
    obtain ⟨_, rfl, hr⟩ := Program.reaches_packed h
    exact .close (reaches_close hr)

/-- A use that reads is a read. -/
theorem Use.From.copied {t : TableReader} {u : TableUse} {buffer : Bytes}
    (hu : u.From perform t) (hread : u.call.operation = .read buffer) :
    ∃ r filled, u.outcome = .read r filled ∧
      Copied u.call.mailboxes buffer t u.events (r, filled) u.after := by
  have hperformed := hu.performed
  rw [hread] at hperformed
  generalize u.events = es, u.outcome = outcome, u.after = t' at hperformed ⊢
  cases hperformed with
  | read h => exact ⟨_, _, rfl, h⟩

/-- The uses that a new table is put to on a platform, one call after the
other. -/
def tableUses {σ : Type} (platform : Platform σ) (s : σ) (c : Codename) (interval : Duration)
    (calls : List TableCall) : List TableUse :=
  uses perform platform calls (fresh c interval) s

theorem history_tableUses {σ : Type} (platform : Platform σ) (s : σ) (c : Codename)
    (interval : Duration) (calls : List TableCall) :
    ∃ t', History perform (fresh c interval) (tableUses platform s c interval calls) t' :=
  history_uses platform calls _ s

/-! ## §3. What a table maps. -/

/-- The stretch of memory that a region shows. -/
def Region.extent (r : Region) : Extent := ⟨r.base, r.length⟩

/-- The stretches of memory that a table lies in, in the order in which they are
read. -/
def Geometry.extents (g : Geometry) : List Extent := g.primary :: g.secondary?.toList

/-- What is mapped shows the stretches that were asked for. -/
theorem TableMapping.Established.extents {g : Geometry} {es : List Event} {mapping : TableMapping}
    (h : Established g es (.ok mapping)) : mapping.regions.map Region.extent = g.extents := by
  cases h with
  | single p hg =>
    rw [Geometry.extents, hg]
    rfl
  | both p q hg =>
    rw [Geometry.extents, hg]
    rfl

namespace TableReader

/-- The regions that a table holds. -/
def regions (t : TableReader) : List Region := t.mapping?.elim [] TableMapping.regions

/-- The table maps what it located, and nothing once it was closed. -/
structure Sound (t : TableReader) : Prop where
  closed : t.closed = true → t.mapping? = none
  mapped : ∀ mapping, t.mapping? = some mapping →
    ∃ g, t.located? = some g ∧ mapping.regions.map Region.extent = g.extents

theorem sound_fresh (c : Codename) (interval : Duration) : (fresh c interval).Sound := by
  constructor
  · intro h
    cases h
  · intro mapping h
    cases h

variable {m : Mailboxes} {t t' : TableReader} {es : List Event}

theorem LookedUp.located {g : Geometry} (h : LookedUp m t es (.ok g) t') :
    t'.located? = some g := by
  cases h with
  | known h => exact h
  | found h hes hreach => rfl

theorem LookedUp.sound {r : Except Failure Geometry} (h : LookedUp m t es r t') (ht : t.Sound) :
    t'.Sound := by
  cases h with
  | known h => exact ht
  | failed h hes hf hreach => exact ht
  | found h hes hreach =>
    refine ⟨ht.closed, ?_⟩
    intro mapping hmapping
    -- nothing is mapped before the geometry is known
    obtain ⟨g, hg, -⟩ := ht.mapped mapping hmapping
    cases h.symm.trans hg

theorem Throttled.sound {r : Except Failure Bool} (h : Throttled m t es r t') (ht : t.Sound) :
    t'.Sound := by
  rw [h.frame]
  exact ⟨ht.closed, ht.mapped⟩

theorem Renewed.sound {g : Geometry} {r : Except Failure TableMapping} (h : Renewed m g t es r t')
    (ht : t.Sound) (hopen : t.closed = false) (hg : t.located? = some g) : t'.Sound := by
  cases h with
  | untransferred h => exact h.sound ht
  | mapped h hmap =>
    have hsound := h.sound ht
    cases hmap with
    | kept => exact hsound
    | failed => exact hsound
    | established hnone hes =>
      rw [h.frame]
      refine ⟨?_, ?_⟩
      · intro hclosed
        cases hopen.symm.trans hclosed
      · intro mapping hmapping
        cases hmapping
        exact ⟨g, hg, hes.extents⟩

theorem Prepared.sound {room? : Option Nat} {r : Except Failure (Geometry × TableMapping)}
    (h : Prepared m room? t es r t') (ht : t.Sound) : t'.Sound := by
  cases h with
  | closed => exact ht
  | unlocated hopen h => exact h.sound ht
  | short hopen h => exact h.sound ht
  | renewed hopen h hroom hrenewed =>
    refine hrenewed.sound (h.sound ht) ?_ h.located
    rw [h.frame]
    exact hopen

/-- Whatever comes of a use, the table maps what it located, and nothing once it
was closed. -/
theorem Performed.sound {operation : TableOperation} {outcome : TableOutcome}
    (h : Performed m t operation es outcome t') (ht : t.Sound) : t'.Sound := by
  cases h with
  | geometry h => exact h.sound ht
  | transferIfDue h => exact h.sound ht
  | prepare h => exact h.sound ht
  | transfer h =>
    rw [h.frame]
    exact ⟨ht.closed, ht.mapped⟩
  | read h =>
    cases h with
    | failed h => exact h.sound ht
    | copied h => exact h.sound ht
  | close h =>
    have hnone : t'.mapping? = none := by rw [h.frame]
    refine ⟨fun _ => hnone, ?_⟩
    intro mapping hmapping
    cases hnone.symm.trans hmapping

theorem Prepared.closed_eq {room? : Option Nat} {r : Except Failure (Geometry × TableMapping)}
    (h : Prepared m room? t es r t') : t'.closed = t.closed := by
  cases h with
  | closed => rfl
  | unlocated hopen h => rw [h.frame]
  | short hopen h => rw [h.frame]
  | renewed hopen h hroom hrenewed =>
    cases hrenewed with
    | untransferred hdue => rw [hdue.frame, h.frame]
    | mapped hdue hmap => rw [hmap.frame, hdue.frame, h.frame]

/-- A table is closed by the use that is for that, and stays closed. -/
theorem Performed.closed_eq {operation : TableOperation} {outcome : TableOutcome}
    (h : Performed m t operation es outcome t') : t'.closed = (t.closed || operation.isClose) := by
  cases h with
  | geometry h | transfer h | transferIfDue h =>
    rw [h.frame]
    exact (Bool.or_false _).symm
  | prepare h => exact h.closed_eq.trans (Bool.or_false _).symm
  | read h =>
    cases h with
    | failed h | copied h => exact h.closed_eq.trans (Bool.or_false _).symm
  | close h =>
    rw [h.frame]
    exact (Bool.or_true _).symm

theorem Sound.regions_eq (h : t.Sound) :
    t.regions = [] ∨ ∃ g, t.located? = some g ∧ t.regions.map Region.extent = g.extents := by
  cases hmapping : t.mapping? with
  | none =>
    left
    rw [regions, hmapping]
    rfl
  | some mapping =>
    obtain ⟨g, hg, hextents⟩ := h.mapped mapping hmapping
    refine .inr ⟨g, hg, ?_⟩
    rw [regions, hmapping]
    exact hextents

/-- So it is with every table, however it was used. -/
theorem sound_of_history {c : Codename} {interval : Duration} {us : List TableUse}
    (h : History perform (fresh c interval) us t') : t'.Sound :=
  h.invariant (fun _ _ _ hu ht => hu.performed.sound ht) (sound_fresh c interval)

/-- A table is open as long as nobody closed it. -/
theorem unclosed_of_history {c : Codename} {interval : Duration} {us : List TableUse}
    (h : History perform (fresh c interval) us t')
    (hopen : ∀ u ∈ us, u.call.operation.isClose = false) : t'.closed = false := by
  refine h.invariant (P := fun t => t.closed = false) ?_ rfl
  intro t u hmem hu ht
  rw [hu.performed.closed_eq, ht, hopen u hmem]
  rfl

end TableReader
end ManagementUnit
