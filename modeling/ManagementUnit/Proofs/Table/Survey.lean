/-
  ManagementUnit.Proofs.Table.Survey
  ────────────────────────────────
  What finding, measuring and transferring the table puts to the firmware.

  All of it goes to the general purpose mailbox, and all of it is fixed by the
  generation: a location query is a plan that is pursued, the format query and the
  transfer command are one message each.  What is left open is how far the firmware
  lets it come, and the length, which may hang on the identifier that the firmware
  tells.

  Main results:
    * `runLocationQuery_eq`    — a location query pursues its messages.
    * `converses_tableGeometry` — what finding and measuring the table puts to the
      firmware, and what comes of it.
    * `Surveyed.tableLength?_eq` — what is found has the length that its format has.
    * `Sent.conversation`, `Transferred.conversation`, `LookedUp.conversation` — what the
      steps on a table put to the firmware.
-/
import ManagementUnit.Proofs.Mailbox.Conversation
import ManagementUnit.Proofs.Table.Course

namespace ManagementUnit

open Program (Converses converses_done converses_note)

/-! ## §1. The messages of a generation. -/

namespace Codename

/-- The query for the format identifier. -/
def formatMessage? (c : Codename) : Option Message :=
  c.formatQuery?.map fun opcode => ⟨.rsmu, opcode, .zero⟩

/-- The transfer command as it is sent. -/
def transferMessage? (c : Codename) : Option Message :=
  c.transferCommand?.map fun command => ⟨.rsmu, command.opcode, .first command.argument⟩

end Codename

namespace LocationQuery

/-- The messages of a location query, in order. -/
def messages : LocationQuery → List Message
  | combined opcode => [⟨.rsmu, opcode, .pair 1 1⟩]
  | indirect => [⟨.rsmu, 0x0B, .zero⟩, ⟨.rsmu, 0x0C, .zero⟩]
  | split =>
    [⟨.rsmu, 0x0A, .first 3⟩, ⟨.rsmu, 0x0B, .first 3⟩, ⟨.rsmu, 0x3D, .first 3⟩,
      ⟨.rsmu, 0x0A, .first 5⟩, ⟨.rsmu, 0x0B, .first 5⟩]

/-- The location that the answers to a location query tell. -/
def location (q : LocationQuery) (answers : List Arguments) : TableLocation :=
  let words := fun i => answers.getD i .zero
  match q with
  | combined _ => ⟨.ofHalves (words 0).word0 (words 0).word1, none⟩
  | indirect => ⟨.ofWord (words 1).word0, none⟩
  | split => ⟨.ofWord (words 1).word0, some (.ofWord (words 4).word0)⟩

end LocationQuery

/-- The messages that measuring the table takes under a layout. -/
def Layout.messages (c : Codename) : Layout → List Message
  | versioned _ => c.formatMessage?.toList
  | split .. => []

/-- The bases of a table in two regions: a single location holds both of them in its
halves. -/
def TableLocation.bases (l : TableLocation) : PhysicalAddress × PhysicalAddress :=
  match l.secondary? with
  | some base => (l.primary, base)
  | none => (.ofWord l.primary.low, .ofWord l.primary.high)

/-- Every generation with a length that goes by the format can tell the format. -/
theorem Codename.formatMessage?_of_versioned {c : Codename} {lengths : List (UInt32 × Nat)}
    (h : c.layout? = some (.versioned lengths)) : ∃ x, c.formatMessage? = some x := by
  cases c <;> first | exact ⟨_, rfl⟩ | cases h

/-- Every generation with a transfer command can find and measure the table. -/
theorem Codename.scheme_of_transferMessage? {c : Codename} {x : Message}
    (h : c.transferMessage? = some x) :
    (∃ q, c.locationQuery? = some q) ∧ ∃ l, c.layout? = some l := by
  cases c <;> first | exact ⟨⟨_, rfl⟩, _, rfl⟩ | cases h

/-- The query for the format goes to the general purpose mailbox, and is none of the
other messages. -/
theorem Codename.formatMessage?_spec {c : Codename} {x : Message} (h : c.formatMessage? = some x) :
    x.channel = .rsmu ∧ x ≠ .version .rsmu ∧ c.transferMessage? ≠ some x ∧
      ∀ q, c.locationQuery? = some q → x ∉ q.messages := by
  have hall : ∀ c : Codename, ∀ x ∈ c.formatMessage?, x.channel = .rsmu ∧ x ≠ .version .rsmu ∧
      c.transferMessage? ≠ some x ∧ ∀ q ∈ c.locationQuery?, x ∉ q.messages := by
    intro c
    cases c <;> decide
  exact hall c x h

/-! ## §2. Finding and measuring. -/

section Finding

variable {m : Mailboxes}

theorem runLocationQuery_eq (q : LocationQuery) :
    m.runLocationQuery q = q.location <$> m.pursue q.messages := by
  cases q <;>
    simp [Mailboxes.runLocationQuery, Mailboxes.pursue, Mailboxes.exchange, Mailboxes.send,
      LocationQuery.messages, LocationQuery.location]

theorem converses_runLocationQuery (q : LocationQuery) :
    (m.runLocationQuery q).run.Converses m fun xs r =>
      ∃ r', m.Pursued q.messages xs r' ∧ r = r'.map q.location := by
  rw [runLocationQuery_eq, map_eq_pure_bind]
  refine (converses_pursue q.messages).attempt ?_ ?_
  · intro xs e h
    exact ⟨_, h, rfl⟩
  · intro xs answers h
    refine converses_done ?_
    rw [List.append_nil]
    exact ⟨_, h, rfl⟩

namespace Mailboxes

/-- What asking for the format can come to. -/
inductive Told (m : Mailboxes) : List Exchange → Except Failure UInt32 → Prop where
  | lacking (h : m.codename.formatMessage? = none) : Told m [] (.error .unsupported)
  | failed {x : Message} {xs : List Exchange} {f : Failure}
      (h : m.codename.formatMessage? = some x) (hx : m.Pursued [x] xs (.error f)) :
      Told m xs (.error f)
  | told {x : Message} {words : Arguments} (h : m.codename.formatMessage? = some x) :
      Told m [⟨x, .ok words⟩] (.ok words.word0)

/-- What measuring a table at a known location can come to. -/
inductive Measured (m : Mailboxes) (location : TableLocation) :
    Layout → List Exchange → Except Failure Geometry → Prop where
  | fixed (primary secondary : Nat) :
      Measured m location (.split primary secondary) []
        (.ok ⟨⟨location.bases.1, primary⟩, some ⟨location.bases.2, secondary⟩, 0⟩)
  | untold {lengths : List (UInt32 × Nat)} {xs : List Exchange} {f : Failure}
      (h : m.Told xs (.error f)) : Measured m location (.versioned lengths) xs (.error f)
  | unknown {lengths : List (UInt32 × Nat)} {xs : List Exchange} {format : UInt32}
      (h : m.Told xs (.ok format)) (hlookup : lengths.lookup format = none) :
      Measured m location (.versioned lengths) xs (.error .unsupported)
  | known {lengths : List (UInt32 × Nat)} {xs : List Exchange} {format : UInt32} {length : Nat}
      (h : m.Told xs (.ok format)) (hlookup : lengths.lookup format = some length) :
      Measured m location (.versioned lengths) xs (.ok ⟨⟨location.primary, length⟩, none, format⟩)

/-- What finding and measuring the table can come to. -/
inductive Surveyed (m : Mailboxes) : List Exchange → Except Failure Geometry → Prop where
  | lacking (h : m.codename.locationQuery? = none ∨ m.codename.layout? = none) :
      Surveyed m [] (.error .unsupported)
  | unlocated {q : LocationQuery} {l : Layout} {xs : List Exchange} {f : Failure}
      (hq : m.codename.locationQuery? = some q) (hl : m.codename.layout? = some l)
      (h : m.Pursued q.messages xs (.error f)) : Surveyed m xs (.error f)
  | measured {q : LocationQuery} {l : Layout} {xs ys : List Exchange} {answers : List Arguments}
      {r : Except Failure Geometry} (hq : m.codename.locationQuery? = some q)
      (hl : m.codename.layout? = some l) (h : m.Pursued q.messages xs (.ok answers))
      (hmeasured : m.Measured (q.location answers) l ys r) : Surveyed m (xs ++ ys) r

end Mailboxes

theorem converses_tableFormat : m.tableFormat.run.Converses m m.Told := by
  unfold Mailboxes.tableFormat
  cases hformat : m.codename.formatQuery? with
  | none =>
    have hnone : m.codename.formatMessage? = none := by rw [Codename.formatMessage?, hformat]; rfl
    exact converses_done (.lacking hnone)
  | some opcode =>
    have hsome : m.codename.formatMessage? = some ⟨.rsmu, opcode, .zero⟩ := by
      rw [Codename.formatMessage?, hformat]
      rfl
    refine (converses_exchange ⟨.rsmu, opcode, .zero⟩).attempt ?_ ?_
    · rintro xs f (⟨hb, rfl, heq⟩ | ⟨-, rfl⟩)
      · cases heq
        exact .failed hsome (.lacking hb)
      · exact .failed hsome (.failed f)
    · rintro xs words (⟨-, -, heq⟩ | ⟨-, rfl⟩)
      · cases heq
      · exact converses_done (.told hsome)

theorem converses_measure (location : TableLocation) (layout : Layout) :
    (m.measure location layout).run.Converses m (m.Measured location layout) := by
  cases layout with
  | split primary secondary => exact converses_done (.fixed primary secondary)
  | versioned lengths =>
    refine (converses_tableFormat.noting fun _ => rfl).attempt ?_ ?_
    · intro xs f h
      exact .untold h
    · intro xs format h
      cases hlookup : lengths.lookup format with
      | none =>
        refine (converses_note rfl).bind ?_
        rintro _ _ rfl
        refine converses_done ?_
        rw [List.nil_append, List.append_nil]
        exact .unknown h hlookup
      | some length =>
        refine converses_done ?_
        rw [List.append_nil]
        exact .known h hlookup

/-- What finding and measuring the table puts to the firmware, and what comes of
it. -/
theorem converses_tableGeometry : m.tableGeometry.run.Converses m m.Surveyed := by
  unfold Mailboxes.tableGeometry
  cases hq : m.codename.locationQuery? with
  | none => exact converses_done (.lacking (.inl hq))
  | some q =>
    cases hl : m.codename.layout? with
    | none => exact converses_done (.lacking (.inr hl))
    | some l =>
      refine ((converses_runLocationQuery q).noting fun _ => rfl).attempt ?_ ?_
      · rintro xs f ⟨r', h, heq⟩
        cases r' with
        | ok => cases heq
        | error =>
          cases heq
          exact .unlocated hq hl h
      · rintro xs location ⟨r', h, heq⟩
        cases r' with
        | error => cases heq
        | ok answers =>
          cases heq
          refine (converses_measure (q.location answers) l).attempt ?_ ?_
          · intro ys f hmeasured
            exact .measured hq hl h hmeasured
          · intro ys g hmeasured
            refine (converses_note rfl).bind ?_
            rintro _ _ rfl
            refine converses_done ?_
            rw [List.nil_append, List.append_nil]
            exact .measured hq hl h hmeasured

/-! ## §3. How far it comes. -/

namespace Mailboxes

variable {location : TableLocation} {l : Layout} {q : LocationQuery} {xs : List Exchange}

theorem Told.completes {format : UInt32} (h : m.Told xs (.ok format)) :
    Completes m.codename.formatMessage?.toList xs := by
  cases h with
  | told h =>
    rw [h]
    exact ⟨rfl, List.forall_mem_singleton.2 rfl⟩

theorem Told.keepsTo {r : Except Failure UInt32} (h : m.Told xs r) :
    KeepsTo m.codename.formatMessage?.toList xs := by
  cases h with
  | lacking => exact .nil _
  | failed h hx =>
    rw [h]
    exact hx.keepsTo
  | told h =>
    rw [h]
    exact Completes.keepsTo ⟨rfl, List.forall_mem_singleton.2 rfl⟩

/-- A format that can be asked for is not told only if the query fails. -/
theorem Told.failed_last {x : Message} (hx : m.codename.formatMessage? = some x)
    (hb : ∃ b, m.registers? x.channel = some b) {f : Failure} (h : m.Told xs (.error f)) :
    ∃ front y, xs = front ++ [⟨y, .error f⟩] := by
  cases h with
  | lacking hnone => cases hnone.symm.trans hx
  | failed h hpursued =>
    cases hx.symm.trans h
    exact hpursued.failed_last (List.forall_mem_singleton.2 hb)

theorem Measured.keepsTo {r : Except Failure Geometry} (h : m.Measured location l xs r) :
    KeepsTo (l.messages m.codename) xs := by
  cases h with
  | fixed => exact .nil _
  | untold h | unknown h | known h => exact h.keepsTo

theorem Measured.completes {g : Geometry} (h : m.Measured location l xs (.ok g)) :
    Completes (l.messages m.codename) xs := by
  cases h with
  | fixed => exact .nil
  | known h => exact h.completes

theorem Surveyed.keepsTo (hq : m.codename.locationQuery? = some q)
    (hl : m.codename.layout? = some l) {r : Except Failure Geometry} (h : m.Surveyed xs r) :
    KeepsTo (q.messages ++ l.messages m.codename) xs := by
  cases h with
  | lacking => exact .nil _
  | unlocated hq' hl' h =>
    cases hq.symm.trans hq'
    exact h.keepsTo.extend _
  | measured hq' hl' h hmeasured =>
    cases hq.symm.trans hq'
    cases hl.symm.trans hl'
    exact (h.completes_iff.2 rfl).append_keepsTo hmeasured.keepsTo

theorem Surveyed.completes (hq : m.codename.locationQuery? = some q)
    (hl : m.codename.layout? = some l) {g : Geometry} (h : m.Surveyed xs (.ok g)) :
    Completes (q.messages ++ l.messages m.codename) xs := by
  cases h with
  | measured hq' hl' h hmeasured =>
    cases hq.symm.trans hq'
    cases hl.symm.trans hl'
    exact (h.completes_iff.2 rfl).append hmeasured.completes

/-- What is found has the length that its format has. -/
theorem Surveyed.tableLength?_eq {g : Geometry} (h : m.Surveyed xs (.ok g)) :
    m.codename.tableLength? g.format = some g.totalLength := by
  cases h with
  | measured hq hl h hmeasured =>
    rw [Codename.tableLength?, hl]
    cases hmeasured with
    | fixed => rfl
    | known h hlookup => exact hlookup

end Mailboxes

end Finding

/-! ## §4. Steps on a table. -/

namespace TableReader

variable {m : Mailboxes} {t t' : TableReader} {es : List Event} {x : Message}

theorem Sent.lacking_of_none {c : Codename} (hx : c.transferMessage? = none)
    {r : Except Failure Unit} (h : Sent m c es r) : es = [] ∧ r = .error .unsupported := by
  cases h with
  | lacking => exact ⟨rfl, rfl⟩
  | failed h | done h =>
    rw [Codename.transferMessage?, h] at hx
    cases hx

/-- A transfer is one exchange. -/
theorem Sent.conversation {c : Codename} (hx : c.transferMessage? = some x)
    {r : Except Failure Unit} (h : Sent m c es r) :
    ∃ xs, Conversation m es xs ∧ m.PursuedAs [x] xs r := by
  have hmessage : ∀ {command}, c.transferCommand? = some command →
      x = ⟨.rsmu, command.opcode, .first command.argument⟩ := by
    intro command hcommand
    rw [Codename.transferMessage?, hcommand] at hx
    exact (Option.some.inj hx).symm
  cases h with
  | lacking h =>
    rw [Codename.transferMessage?, h] at hx
    cases hx
  | failed h hes hf hreach =>
    cases hmessage h
    exact conversation_exchange ⟨.rsmu, _, .first _⟩ hreach
  | done h hes hreach =>
    cases hmessage h
    obtain ⟨xs, hxs, hend⟩ := conversation_exchange ⟨.rsmu, _, .first _⟩ hreach
    refine ⟨xs ++ [], hxs.append (.aside rfl .nil), ?_⟩
    rw [List.append_nil]
    exact hend

theorem Transferred.conversation (hx : t.codename.transferMessage? = some x)
    {r : Except Failure Unit} (h : Transferred m t es r t') :
    ∃ xs, Conversation m es xs ∧ m.PursuedAs [x] xs r := by
  cases h with
  | failed h => exact h.conversation hx
  | stamped now h =>
    obtain ⟨xs, hxs, hend⟩ := h.conversation hx
    refine ⟨xs ++ [], hxs.append (.aside rfl .nil), ?_⟩
    rw [List.append_nil]
    exact hend

/-- Looking the geometry up for the first time is finding and measuring the table. -/
theorem LookedUp.conversation (hnone : t.located? = none) {r : Except Failure Geometry}
    (h : LookedUp m t es r t') : ∃ xs, Conversation m es xs ∧ m.Surveyed xs r := by
  cases h with
  | known hsome => cases hnone.symm.trans hsome
  | found _ _ hreach | failed _ _ _ hreach => exact converses_tableGeometry _ _ hreach

theorem Mapped.conversation {g : Geometry} {r : Except Failure TableMapping}
    (h : Mapped g t es r t') : Conversation m es [] := by
  refine .ofAside ?_
  rintro ⟨request, reply⟩ he
  cases Request.handling_of_isHandling (h.handling _ he) <;> rfl

end TableReader
end ManagementUnit
