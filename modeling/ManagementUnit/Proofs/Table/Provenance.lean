/-
  ManagementUnit.Proofs.Table.Provenance
  ────────────────────────────────
  Where the words of the table's base addresses come from.

  The firmware answers a location query in the argument registers, over the
  words of the request.  A transaction reads them back once the status tells
  success, and takes a word of the request for one that cannot be read.  So a
  word of a base address is what was read after the status of the command that
  answers with it, unless just that read faulted; then it is a word of the
  driver's own, and nothing in the address tells.

  Main results:
    * `yields_send`             — a successful command is a whole transaction, and
      its answer is what was read back.
    * `yields_runLocationQuery` — which transactions a location is made of.
    * `base_provenance`        — which words the base addresses are made of.
-/
import ManagementUnit.Proofs.Mailbox.Course
import ManagementUnit.Simulation.World
import ManagementUnit.Table.Reader

namespace ManagementUnit

open Program (note Conducts conducts_pure)

/-! ## §1. Attempts that succeed. -/

/-- If the attempt succeeds, then by network accesses that satisfy `post`
together with its answer. -/
def Attempt.Yields {α : Type} (w : Window) (x : Attempt α) (post : List Access → α → Prop) : Prop :=
  x.run.Conducts w fun as r => ∀ a, r = .ok a → post as a

namespace Attempt.Yields

variable {w : Window} {α β : Type} {x : Attempt α} {post : List Access → α → Prop}

theorem mono {post' : List Access → α → Prop} (h : x.Yields w post)
    (hpost : ∀ as a, post as a → post' as a) : x.Yields w post' :=
  Conducts.mono h fun as _ hr a ha => hpost as a (hr a ha)

theorem pure {a : α} (h : post [] a) : (pure a : Attempt α).Yields w post := by
  refine conducts_pure ?_
  intro b hb
  cases hb
  exact h

theorem fail {e : Failure} : (Attempt.fail e : Attempt α).Yields w post := by
  refine conducts_pure ?_
  intro b hb
  cases hb

theorem bind {f : α → Attempt β} {post' : List Access → β → Prop} (hx : x.Yields w post)
    (hf : ∀ as a, post as a → (f a).Yields w fun bs b => post' (as ++ bs) b) :
    (x >>= f).Yields w post' := by
  refine Conducts.attempt hx ?_ ?_
  · intro as e _ b hb
    cases hb
  · intro as a ha
    exact hf as a (ha a rfl)

/-- Noting a failure changes nothing. -/
theorem noting {d : Failure → Diagnostic} (hx : x.Yields w post) : (x.noting d).Yields w post := by
  refine Conducts.bind hx ?_
  intro as r hr
  cases r with
  | ok a =>
    refine conducts_pure ?_
    rw [List.append_nil]
    exact hr
  | error e =>
    refine Conducts.afterNote (conducts_pure ?_)
    intro a ha
    cases ha

theorem afterNote {d : Diagnostic} (hx : x.Yields w post) :
    Attempt.Yields w ((note d : Attempt Unit) >>= fun _ => x) post :=
  Conducts.attemptNote hx

/-- A value that is there is had for nothing. -/
theorem require {o : Option β} {f : β → Attempt α} (hf : ∀ b, o = some b → (f b).Yields w post) :
    (Attempt.require o >>= f).Yields w post := by
  cases o with
  | none =>
    have hnone : (Attempt.require (none : Option β)).Yields w fun _ _ => False := fail
    exact hnone.bind fun _ _ h => h.elim
  | some b =>
    have hsome : (Attempt.require (some b)).Yields w fun as c => as = [] ∧ c = b := pure ⟨rfl, rfl⟩
    refine hsome.bind ?_
    intro _ _ hpost
    obtain ⟨rfl, rfl⟩ := hpost
    exact hf _ rfl

theorem onPlatform {σ : Type} {platform : Platform σ} {s : σ} {a : α} (hx : x.Yields w post)
    (ha : (x.run.run platform s).1 = .ok a) :
    ∃ as, Traffic w (x.run.journal platform s) as ∧ post as a := by
  obtain ⟨as, has, hpost⟩ := hx _ _ (Program.reaches_journal platform x.run s)
  exact ⟨as, has, hpost a ha⟩

end Attempt.Yields

/-! ## §2. Answers. -/

/-- The accesses `as` are a whole transaction that the firmware answers with
success; reading the words back ends as `outcomes` tells. -/
inductive RegisterBlock.Answered (b : RegisterBlock) (opcode : UInt32) (sent : Arguments) :
    List Access → (Fin wordCount → Except NetworkFault UInt32) → Prop where
  | intro {n k : Nat} {v : UInt32} (hv : v ≠ 0)
      (outcomes : Fin wordCount → Except NetworkFault UInt32) :
      b.Answered opcode sent
        (b.poll n v ++ (b.request opcode sent).map Access.stored ++ b.poll k ResponseCode.ok
          ++ b.readBack outcomes) outcomes

/-- The word that a driver takes for an answer: the one that was read, or one of
its own if reading faulted. -/
def taken (own : UInt32) : Except NetworkFault UInt32 → UInt32
  | .ok v => v
  | .error _ => own

theorem Arguments.get_received (sent : Arguments)
    (outcomes : Fin wordCount → Except NetworkFault UInt32) (i : Fin wordCount) :
    (sent.received outcomes).get i = taken (sent.get i) (outcomes i) := by
  rw [received, get_ofFn]
  cases outcomes i <;> rfl

variable {m : Mailboxes} {b : RegisterBlock}

/-- A command that succeeds is a whole transaction, and its answer is what was
read back. -/
theorem yields_send (hb : m.registers? .rsmu = some b) (opcode : UInt32) (sent : Arguments) :
    (m.send opcode sent).Yields m.window fun as words =>
      ∃ outcomes, b.Answered opcode sent as outcomes ∧ words = sent.received outcomes := by
  refine Conducts.mono (conducts_execute hb opcode sent) ?_
  intro as r hpost words heq
  obtain ⟨hcourse, -⟩ := hpost
  subst heq
  cases hcourse with
  | answered hv outcomes => exact ⟨outcomes, .intro hv outcomes, rfl⟩

/-! ## §3. Locations. -/

/-- `Located b query as location`: the accesses `as` are the transactions of the
query, and the location is made of what the driver takes for the answers. -/
inductive Located (b : RegisterBlock) : LocationQuery → List Access → TableLocation → Prop where
  /-- Both halves come from the answer to the only command; either of its own
  words is a one. -/
  | combined {opcode : UInt32} {as : List Access} {o : Fin wordCount → Except NetworkFault UInt32}
      (h : b.Answered opcode (.pair 1 1) as o) :
      Located b (.combined opcode) as ⟨.ofHalves (taken 1 (o 0)) (taken 1 (o 1)), none⟩
  /-- The word comes from the answer to the second command; its own is a zero. -/
  | indirect {as bs : List Access} {o p : Fin wordCount → Except NetworkFault UInt32}
      (h₁ : b.Answered 0x0B .zero as o) (h₂ : b.Answered 0x0C .zero bs p) :
      Located b .indirect (as ++ bs) ⟨.ofWord (taken 0 (p 0)), none⟩
  /-- The words come from the answers to the second and to the last command;
  their own are a three and a five. -/
  | split {as bs cs ds es : List Access} {o p q r t : Fin wordCount → Except NetworkFault UInt32}
      (h₁ : b.Answered 0x0A (.first 3) as o) (h₂ : b.Answered 0x0B (.first 3) bs p)
      (h₃ : b.Answered 0x3D (.first 3) cs q) (h₄ : b.Answered 0x0A (.first 5) ds r)
      (h₅ : b.Answered 0x0B (.first 5) es t) :
      Located b .split (as ++ (bs ++ (cs ++ (ds ++ es))))
        ⟨.ofWord (taken 3 (p 0)), some (.ofWord (taken 5 (t 0)))⟩

/-- A location query that succeeds is made of these transactions. -/
theorem yields_runLocationQuery (hb : m.registers? .rsmu = some b) (query : LocationQuery) :
    (m.runLocationQuery query).Yields m.window (Located b query) := by
  have hsend := fun opcode sent => yields_send hb opcode sent
  cases query with
  | combined opcode =>
    refine (hsend opcode _).bind ?_
    intro as _ hpost
    obtain ⟨o, h, rfl⟩ := hpost
    refine .pure ?_
    rw [List.append_nil, Arguments.word0, Arguments.word1, Arguments.get_received,
      Arguments.get_received]
    exact .combined h
  | indirect =>
    refine (hsend 0x0B _).bind ?_
    intro as _ hpost
    obtain ⟨o, h₁, rfl⟩ := hpost
    refine (hsend 0x0C _).bind ?_
    intro bs _ hpost
    obtain ⟨p, h₂, rfl⟩ := hpost
    refine .pure ?_
    rw [List.append_nil, Arguments.word0, Arguments.get_received]
    exact .indirect h₁ h₂
  | split =>
    refine (hsend 0x0A _).bind ?_
    intro as _ hpost
    obtain ⟨o, h₁, rfl⟩ := hpost
    refine (hsend 0x0B _).bind ?_
    intro bs _ hpost
    obtain ⟨p, h₂, rfl⟩ := hpost
    refine (hsend 0x3D _).bind ?_
    intro cs _ hpost
    obtain ⟨q, h₃, rfl⟩ := hpost
    refine (hsend 0x0A _).bind ?_
    intro ds _ hpost
    obtain ⟨r, h₄, rfl⟩ := hpost
    refine (hsend 0x0B _).bind ?_
    intro es _ hpost
    obtain ⟨t, h₅, rfl⟩ := hpost
    refine .pure ?_
    rw [List.append_nil, Arguments.word0, Arguments.word0, Arguments.get_received,
      Arguments.get_received]
    exact .split h₁ h₂ h₃ h₄ h₅

/-! ## §4. Base addresses. -/

/-- A generation that tells where its table lies has the mailbox to ask. -/
theorem Codename.generalPurpose_of_locationQuery {c : Codename} {query : LocationQuery}
    (h : c.locationQuery? = some query) : ∃ b, c.registers? .rsmu = some b := by
  cases c <;> cases h <;> exact ⟨_, rfl⟩

/-- A layout of two regions goes with a query that yields two addresses, and one
of a single region with a query that yields one. -/
inductive LocationQuery.Fits : LocationQuery → Layout → Prop where
  | versioned (opcode : UInt32) (lengths : List (UInt32 × Nat)) :
      Fits (.combined opcode) (.versioned lengths)
  | split (primary secondary : Nat) : Fits .split (.split primary secondary)

/-- So it is on each generation. -/
theorem Codename.query_fits {c : Codename} {query : LocationQuery} {layout : Layout}
    (hquery : c.locationQuery? = some query) (hlayout : c.layout? = some layout) :
    query.Fits layout := by
  cases c <;> cases hquery <;> cases hlayout <;> constructor

theorem yields_tableFormat (hb : m.registers? .rsmu = some b) :
    m.tableFormat.Yields m.window fun _ _ => True := by
  refine .require fun opcode _ => ?_
  refine (yields_send hb opcode .zero).bind ?_
  intro as words _
  exact .pure trivial

/-- Measuring leaves the bases as they were located. -/
theorem yields_measure (hb : m.registers? .rsmu = some b) {query : LocationQuery} {layout : Layout}
    (hfits : query.Fits layout) {as : List Access} {location : TableLocation}
    (h : Located b query as location) :
    (m.measure location layout).Yields m.window fun _ g =>
      g.primary.base = location.primary ∧ g.secondary?.map Extent.base = location.secondary? := by
  cases hfits with
  | versioned opcode lengths =>
    -- such a layout goes with the query that yields a single address
    cases h with
    | combined h =>
      refine (yields_tableFormat hb).noting.bind ?_
      intro bs format _
      dsimp only
      split
      · exact .afterNote .fail
      · exact .pure ⟨rfl, rfl⟩
  | split primary secondary =>
    cases h with
    | split h₁ h₂ h₃ h₄ h₅ => exact .pure ⟨rfl, rfl⟩

/-- A location comes from the query of the generation. -/
theorem yields_tableLocation (m : Mailboxes) :
    m.tableLocation.Yields m.window fun as location =>
      ∃ b query, m.registers? .rsmu = some b ∧ m.codename.locationQuery? = some query ∧
        Located b query as location := by
  refine .require fun query hquery => ?_
  obtain ⟨b, hb⟩ := Codename.generalPurpose_of_locationQuery hquery
  refine (yields_runLocationQuery hb query).noting.mono ?_
  intro as location h
  exact ⟨b, query, hb, hquery, h⟩

/-- The regions of a geometry begin where the table was located. -/
theorem yields_tableGeometry (m : Mailboxes) :
    m.tableGeometry.Yields m.window fun as g =>
      ∃ b query bs cs location, m.registers? .rsmu = some b ∧
        m.codename.locationQuery? = some query ∧ as = bs ++ cs ∧ Located b query bs location ∧
          g.primary.base = location.primary ∧
            g.secondary?.map Extent.base = location.secondary? := by
  refine .require fun query hquery => ?_
  refine .require fun layout hlayout => ?_
  obtain ⟨b, hb⟩ := Codename.generalPurpose_of_locationQuery hquery
  refine (yields_runLocationQuery hb query).noting.bind ?_
  intro bs location hlocated
  refine (yields_measure hb (Codename.query_fits hquery hlayout) hlocated).bind ?_
  intro cs g hpost
  obtain ⟨hprimary, hsecondary⟩ := hpost
  refine .afterNote (.pure ?_)
  refine ⟨b, query, bs, cs, location, hb, hquery, ?_, hlocated, hprimary, hsecondary⟩
  rw [List.append_nil]

/-- On any platform, the words of the base addresses are what was read back after
the status of the command that answers with them, and words of the driver's own
where that read faulted; the regions of the table begin at these addresses. -/
theorem base_provenance {σ : Type} (platform : Platform σ) (s : σ) (m : Mailboxes) :
    (∀ location, (m.tableLocation.run.run platform s).1 = .ok location →
      ∃ b query as, m.registers? .rsmu = some b ∧ m.codename.locationQuery? = some query ∧
        Traffic m.window (m.tableLocation.run.journal platform s) as ∧
          Located b query as location) ∧
    ∀ g, (m.tableGeometry.run.run platform s).1 = .ok g →
      ∃ b query as bs location, m.registers? .rsmu = some b ∧
        m.codename.locationQuery? = some query ∧
        Traffic m.window (m.tableGeometry.run.journal platform s) (as ++ bs) ∧
          Located b query as location ∧ g.primary.base = location.primary ∧
            g.secondary?.map Extent.base = location.secondary? := by
  refine ⟨fun location h => ?_, fun g h => ?_⟩
  · obtain ⟨as, has, b, query, hb, hquery, hlocated⟩ := (yields_tableLocation m).onPlatform h
    exact ⟨b, query, as, hb, hquery, has, hlocated⟩
  · obtain ⟨_, has, b, query, as, bs, location, hb, hquery, rfl, hlocated, hprimary, hsecondary⟩ :=
      (yields_tableGeometry m).onPlatform h
    exact ⟨b, query, as, bs, location, hb, hquery, has, hlocated, hprimary, hsecondary⟩

namespace Unread

open Simulation

/-- The registers that the location is asked for with. -/
def block : RegisterBlock := ⟨0x03B10524, 0x03B10570, 0x03B10A40⟩

/-- The driver's side of a machine. -/
def mailboxes : Mailboxes := ⟨.matisse, 2, .standard⟩

/-- Firmware that knows the format of the table and where it lies. -/
def firmware : Firmware (Unit × Memory) := fun _ opcode _ s =>
  (some ⟨ResponseCode.ok, if opcode = 0x08 then .first 0x00240902 else .pair 0xDF100000 0⟩, s)

/-- A machine on which everything works. -/
def sound : World Unit where
  chip := ({} : Chip).attachAll .matisse
  firmware := ()

/-- A machine whose first argument register cannot be read. -/
def broken : World Unit where
  chip := (({} : Chip).attachAll .matisse).failReads (block.argument 0)
  firmware := ()

/-- Where everything works, the base is the address that the firmware told. -/
theorem base_provenance_sound :
    (∃ as, Located block (.combined 0x06) as ⟨.ofHalves 0xDF100000 0, none⟩ ∧
      Traffic .standard (mailboxes.tableLocation.run.journal (World.platform firmware) sound) as) ∧
    ∃ as bs location, Located block (.combined 0x06) as location ∧
      Traffic .standard (mailboxes.tableGeometry.run.journal (World.platform firmware) sound)
        (as ++ bs) ∧
      location.primary = .ofHalves 0xDF100000 0 := by
  obtain ⟨hlocation, hgeometry⟩ := base_provenance (World.platform firmware) sound mailboxes
  refine ⟨?_, ?_⟩
  · obtain ⟨b, query, as, hb, hquery, has, hlocated⟩ := hlocation ⟨.ofHalves 0xDF100000 0, none⟩ rfl
    cases hb
    cases hquery
    exact ⟨as, hlocated, has⟩
  · obtain ⟨b, query, as, bs, location, hb, hquery, has, hlocated, hprimary, -⟩ :=
      hgeometry ⟨⟨.ofHalves 0xDF100000 0, 0x514⟩, none, 0x00240902⟩ rfl
    cases hb
    cases hquery
    exact ⟨as, bs, location, hlocated, has, hprimary.symm⟩

/-- How reading the words back ends on the broken machine. -/
def outcomes : Fin wordCount → Except NetworkFault UInt32
  | 0 => .error (.read (block.argument 0))
  | _ => .ok 0

/-- What the driver accesses before that. -/
def front : List Access :=
  block.poll 0 1 ++ (block.request 0x06 (.pair 1 1)).map Access.stored ++
    block.poll 0 ResponseCode.ok

/-- What the driver accesses on the broken machine. -/
theorem traffic_broken :
    Traffic .standard (mailboxes.tableLocation.run.journal (World.platform firmware) broken)
      (front ++ block.readBack outcomes) := by
  -- all but one access go through, and the one that does not comes between two such rows
  let rest := (block.readBack outcomes).tail
  have hfront : Traffic .standard (front.flatMap (Access.events .standard)) front :=
    .ofEvents (by decide)
  have hfault := Traffic.single (.readFault (w := .standard) (block.argument 0) ⟨0xC8⟩)
  have hrest : Traffic .standard (rest.flatMap (Access.events .standard)) rest :=
    .ofEvents (by decide)
  have hend := hrest.append (.ofNote (.requestAnswered .rsmu 0x06 (.pair 1 0)))
  rw [List.append_nil] at hend
  have hback := hfault.append (.note (.networkFault (.read (block.argument 0)))
    (.note (.wordUnreadable .rsmu 0 (.read (block.argument 0))) hend))
  exact .note (.requestSent .rsmu 0x06 (.pair 1 1)) (hfront.append hback)

/-- On the broken machine the base begins with a one, which the driver sent and
no argument register ever showed. -/
theorem own_word_taken :
    (mailboxes.tableLocation.run.run (World.platform firmware) broken).1 =
        .ok ⟨.ofHalves 1 0, none⟩ ∧
      ∀ as, Traffic .standard
          (mailboxes.tableLocation.run.journal (World.platform firmware) broken) as →
        ∀ i : Fin wordCount, .read (block.argument i.val) (.ok 1) ∉ as := by
  refine ⟨rfl, fun as has i hmem => ?_⟩
  -- whichever accesses one takes the journal for, a read that went through is among these
  have hread := Access.mem_of_plain (has.plain_eq traffic_broken) hmem rfl
  have houtcome := (RegisterBlock.mem_readBack_of_read (by decide) hread).2
  match i with
  | 0 | 1 | 2 | 3 | 4 | 5 => cases houtcome

end Unread
end ManagementUnit
