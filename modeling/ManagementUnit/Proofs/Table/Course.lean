/-
  ManagementUnit.Proofs.Table.Course
  ────────────────────────────────
  What the steps on a table can come to.

  A step leaves off where something fails, and keeps what it did before.  For each
  step there is one relation that says which requests it makes, how it ends and
  what becomes of the table:

      LookedUp     the geometry, kept or asked for
      Sent         the transfer command
      Transferred  a forced transfer, stamped when it is over
      Throttled    a transfer if one is due, stamped with the reading that said so
      Mapped       the regions, kept or established
      Prepared     what comes before the copy: all of these in a row
      Copied       a read
      Closed       the end

  Everything that is proved about tables starts from these relations, and not from
  the programs.

  Main results:
    * `comes_geometry`, `comes_transfer`, `comes_transferIfDue`, `comes_prepare`,
      `comes_prepareFor`, `reaches_read`, `reaches_close` — a step comes to nothing
      else.
    * `LookedUp.forall_events`, `Sent.forall_events`, `Transferred.forall_events`,
      `Throttled.forall_events`, `Mapped.handling`, `Closed.forall_events` — what all
      events of a step have in common.
-/
import ManagementUnit.Proofs.Mailbox.Inquiry
import ManagementUnit.Table.Reader

namespace ManagementUnit

open Program (request note reaches_bind_iff reaches_done_iff)

/-! ## §1. Steps in a row. -/

namespace Program

variable {α : Type} {es : List Event}

/-- A program lifted to a state leaves the state alone. -/
theorem reaches_lift {σ : Type} {β : Type} {p : Program β} {f : β → StateT σ Program α} {s : σ}
    {a : α × σ} (h : (((liftM p : StateT σ Program β) >>= f).run s).Reaches es a) :
    ∃ fs gs b, es = fs ++ gs ∧ p.Reaches fs b ∧ ((f b).run s).Reaches gs a := by
  obtain ⟨_, gs, ⟨b, _⟩, rfl, hlifted, hf⟩ := reaches_bind_iff.1 h
  obtain ⟨fs, _, _, rfl, hp, hdone⟩ := reaches_bind_iff.1 hlifted
  obtain ⟨rfl, heq⟩ := reaches_done_iff.1 hdone
  cases heq
  rw [List.append_nil]
  exact ⟨fs, gs, b, rfl, hp, hf⟩

end Program

namespace TableStep

variable {α β : Type} {t t' : TableReader} {es : List Event} {r : Except Failure α}

/-- Begun on the table `t`, the step can make the requests `es` with the replies
they tell, end with `r` and leave the table as `t'`. -/
def Comes (x : TableStep α) (t : TableReader) (es : List Event) (r : Except Failure α)
    (t' : TableReader) : Prop :=
  (x.run.run t).Reaches es (r, t')

theorem comes_bind {x : TableStep β} {f : β → TableStep α} (h : (x >>= f).Comes t es r t') :
    (∃ e, x.Comes t es (.error e) t' ∧ r = .error e) ∨
      ∃ fs gs b t₁, es = fs ++ gs ∧ x.Comes t fs (.ok b) t₁ ∧ (f b).Comes t₁ gs r t' := by
  obtain ⟨fs, gs, ⟨outcome, t₁⟩, rfl, hx, hf⟩ := reaches_bind_iff.1 h
  cases outcome with
  | error e =>
    obtain ⟨rfl, heq⟩ := reaches_done_iff.1 hf
    cases heq
    rw [List.append_nil]
    exact .inl ⟨e, hx, rfl⟩
  | ok b => exact .inr ⟨fs, gs, b, t₁, rfl, hx, hf⟩

theorem comes_pure {a : α} (h : (pure a : TableStep α).Comes t es r t') :
    es = [] ∧ r = .ok a ∧ t' = t := by
  obtain ⟨rfl, heq⟩ := reaches_done_iff.1 h
  cases heq
  exact ⟨rfl, rfl, rfl⟩

theorem comes_throw {e : Failure} (h : (throw e : TableStep α).Comes t es r t') :
    es = [] ∧ r = .error e ∧ t' = t := by
  obtain ⟨rfl, heq⟩ := reaches_done_iff.1 h
  cases heq
  exact ⟨rfl, rfl, rfl⟩

theorem comes_ofAttempt {x : Attempt α} (h : (ofAttempt x).Comes t es r t') :
    x.run.Reaches es r ∧ t' = t := by
  obtain ⟨fs, gs, a, rfl, hx, hf⟩ := reaches_bind_iff.1 h
  obtain ⟨rfl, heq⟩ := reaches_done_iff.1 hf
  cases heq
  rw [List.append_nil]
  exact ⟨hx, rfl⟩

theorem comes_lift {p : Program β} {f : β → TableStep α}
    (h : Comes ((liftM p : TableStep β) >>= f) t es r t') :
    ∃ fs gs b, es = fs ++ gs ∧ p.Reaches fs b ∧ (f b).Comes t gs r t' := by
  obtain ⟨_, gs, ⟨outcome, t₁⟩, rfl, hlifted, hf⟩ := reaches_bind_iff.1 h
  -- a lifted program always succeeds
  have hlifted : (((liftM p : StateT TableReader Program β) >>= fun b =>
      pure (Except.ok b)).run t).Reaches _ (outcome, t₁) := hlifted
  obtain ⟨fs, _, b, rfl, hp, hdone⟩ := Program.reaches_lift hlifted
  obtain ⟨rfl, heq⟩ := reaches_done_iff.1 hdone
  cases heq
  rw [List.append_nil]
  exact ⟨fs, gs, b, rfl, hp, hf⟩

theorem comes_request {q : Request} {f : q.Reply → TableStep α}
    (h : Comes ((liftM (request q) : TableStep q.Reply) >>= f) t es r t') :
    ∃ reply fs, es = ⟨q, reply⟩ :: fs ∧ (f reply).Comes t fs r t' := by
  obtain ⟨fs, gs, reply, rfl, hq, hf⟩ := comes_lift h
  cases hq with
  | ask hq =>
    cases hq
    exact ⟨reply, gs, rfl, hf⟩

theorem comes_get {f : TableReader → TableStep α} :
    (get >>= f).Comes t es r t' ↔ (f t).Comes t es r t' := Iff.rfl

/-- A step that ends by changing the table and giving an answer. -/
theorem comes_modify {g : TableReader → TableReader} {a : α}
    (h : (modify g >>= fun _ => (pure a : TableStep α)).Comes t es r t') :
    es = [] ∧ r = .ok a ∧ t' = g t := by
  obtain ⟨rfl, heq⟩ := reaches_done_iff.1 h
  cases heq
  exact ⟨rfl, rfl, rfl⟩

end TableStep

open TableStep

/-! ## §2. Regions. -/

/-- A range is mapped, or refused. -/
theorem Region.reaches_map {base : PhysicalAddress} {length : Nat} {es : List Event}
    {r : Except MapError Region} (h : (Region.map base length).Reaches es r) :
    (∃ e, es = [⟨.map base length, .error e⟩] ∧ r = .error e) ∨
      ∃ p, es = [⟨.map base length, .ok p⟩] ∧ r = .ok ⟨base, p, length⟩ := by
  cases h with
  | @ask _ _ reply _ _ h =>
    cases reply with
    | error e =>
      cases h
      exact .inl ⟨e, rfl, rfl⟩
    | ok p =>
      cases h
      exact .inr ⟨p, rfl, rfl⟩

/-- What mapping, copying and giving back a table consist of. -/
def Request.isHandling : Request → Bool
  | map .. | unmap .. | load .. => true
  | note (.primaryUnmapped _) | note (.secondaryUnmapped _) => true
  | _ => false

/-- The same, request by request. -/
inductive Request.Handling : Request → Prop where
  | map (base : PhysicalAddress) (length : Nat) : Handling (.map base length)
  | unmap (place : Place) (length : Nat) : Handling (.unmap place length)
  | load (place : Place) (count : Nat) : Handling (.load place count)
  | primaryUnmapped (e : MapError) : Handling (.note (.primaryUnmapped e))
  | secondaryUnmapped (e : MapError) : Handling (.note (.secondaryUnmapped e))

/-- There is nothing else to handling a table; what is so of each of these requests is so
of all of it. -/
theorem Request.handling_of_isHandling {r : Request} (h : r.isHandling = true) : r.Handling := by
  cases r with
  | map | unmap | load => constructor
  | note d => cases d <;> first | constructor | cases h
  | identify | readBridge | writeBridge | now => cases h

namespace TableMapping

/-- The regions of a mapping, in the order in which they are read. -/
def regions (mapping : TableMapping) : List Region :=
  mapping.primary :: mapping.secondary?.toList

/-- The events in which regions are given back, in order. -/
def returned (regions : List Region) : List Event :=
  regions.map fun r => ⟨.unmap r.place r.length, ()⟩

/-- What mapping the regions of a geometry can come to. -/
inductive Established (g : Geometry) : List Event → Except Failure TableMapping → Prop where
  | refused (e : MapError) :
      Established g [⟨.map g.primary.base g.primary.length, .error e⟩,
        ⟨.note (.primaryUnmapped e), ()⟩] (.error (.unmapped e))
  | single (p : Place) (h : g.secondary? = none) :
      Established g [⟨.map g.primary.base g.primary.length, .ok p⟩]
        (.ok ⟨⟨g.primary.base, p, g.primary.length⟩, none⟩)
  | both (p q : Place) {x : Extent} (h : g.secondary? = some x) :
      Established g [⟨.map g.primary.base g.primary.length, .ok p⟩, ⟨.map x.base x.length, .ok q⟩]
        (.ok ⟨⟨g.primary.base, p, g.primary.length⟩, some ⟨x.base, q, x.length⟩⟩)
  /-- The second one is refused, and the first one given back. -/
  | undone (p : Place) (e : MapError) {x : Extent} (h : g.secondary? = some x) :
      Established g [⟨.map g.primary.base g.primary.length, .ok p⟩,
        ⟨.map x.base x.length, .error e⟩, ⟨.note (.secondaryUnmapped e), ()⟩,
        ⟨.unmap p g.primary.length, ()⟩] (.error (.unmapped e))

theorem reaches_establish {g : Geometry} {es : List Event} {r : Except Failure TableMapping}
    (h : (establish g).run.Reaches es r) : Established g es r := by
  obtain ⟨_, _, _, rfl, hprimary, h⟩ := reaches_bind_iff.1 h
  obtain ⟨e, rfl, rfl⟩ | ⟨p, rfl, rfl⟩ := Region.reaches_map hprimary
  · cases h with
    | ask h =>
      cases h
      exact .refused e
  · dsimp only at h
    cases hg : g.secondary? with
    | none =>
      rw [hg] at h
      cases h
      exact .single p hg
    | some x =>
      rw [hg] at h
      obtain ⟨_, _, _, rfl, hsecondary, h⟩ := reaches_bind_iff.1 h
      obtain ⟨e, rfl, rfl⟩ | ⟨q, rfl, rfl⟩ := Region.reaches_map hsecondary
      · cases h with
        | ask h =>
          cases h with
          | ask h =>
            cases h
            exact .undone p e hg
      · cases h
        exact .both p q hg

theorem Established.handling {g : Geometry} {es : List Event} {r : Except Failure TableMapping}
    (h : Established g es r) : ∀ e ∈ es, e.request.isHandling = true := by
  cases h <;> simp [Request.isHandling]

/-- Giving a mapping back is giving its regions back, in order. -/
theorem reaches_release {mapping : TableMapping} {es : List Event} {r : Unit}
    (h : mapping.release.Reaches es r) : es = returned mapping.regions := by
  rcases mapping with ⟨primary, secondary?⟩
  cases h with
  | ask h =>
    cases secondary? with
    | none =>
      cases h
      rfl
    | some secondary =>
      cases h with
      | ask h =>
        cases h
        rfl

/-- A copy loads from the regions and does nothing else. -/
theorem reaches_copyInto {mapping : TableMapping} {buffer filled : Bytes} {es : List Event}
    (h : (mapping.copyInto buffer).Reaches es filled) :
    ∀ e ∈ es, ∃ place count, e.request = .load place count := by
  rcases mapping with ⟨primary, secondary?⟩
  cases h with
  | ask h =>
    cases secondary? with
    | none =>
      cases h
      simp
    | some secondary =>
      cases h with
      | ask h =>
        cases h
        simp

theorem handling_of_copyInto {mapping : TableMapping} {buffer filled : Bytes} {es : List Event}
    (h : (mapping.copyInto buffer).Reaches es filled) :
    ∀ e ∈ es, e.request.isHandling = true := by
  intro e he
  obtain ⟨place, count, hload⟩ := reaches_copyInto h e he
  rw [hload]
  rfl

end TableMapping

namespace TableReader

/-! ## §3. Steps. -/

/-- What looking the geometry up can come to: it is known, and nothing is asked,
or it is not, and the firmware is asked for all of it. -/
inductive LookedUp (m : Mailboxes) (t : TableReader) :
    List Event → Except Failure Geometry → TableReader → Prop where
  | known {g : Geometry} (h : t.located? = some g) : LookedUp m t [] (.ok g) t
  | found {es : List Event} {g : Geometry} (h : t.located? = none) (hes : ∀ e ∈ es, e.Inquiry)
      (hreach : m.tableGeometry.run.Reaches (es ++ [⟨.note (.tableLocated g), ()⟩]) (.ok g)) :
      LookedUp m t (es ++ [⟨.note (.tableLocated g), ()⟩]) (.ok g) { t with located? := some g }
  | failed {es : List Event} {f : Failure} (h : t.located? = none) (hes : ∀ e ∈ es, e.Inquiry)
      (hf : f.isInquiry = true) (hreach : m.tableGeometry.run.Reaches es (.error f)) :
      LookedUp m t es (.error f) t

/-- What sending the transfer command of a generation can come to. -/
inductive Sent (m : Mailboxes) (c : Codename) : List Event → Except Failure Unit → Prop where
  | lacking (h : c.transferCommand? = none) : Sent m c [] (.error .unsupported)
  | failed {es : List Event} {f : Failure} {command : TransferCommand}
      (h : c.transferCommand? = some command) (hes : ∀ e ∈ es, e.Inquiry)
      (hf : f.isInquiry = true)
      (hreach : (m.send command.opcode (.first command.argument)).run.Reaches es (.error f)) :
      Sent m c es (.error f)
  | done {es : List Event} {words : Arguments} {command : TransferCommand}
      (h : c.transferCommand? = some command) (hes : ∀ e ∈ es, e.Inquiry)
      (hreach : (m.send command.opcode (.first command.argument)).run.Reaches es (.ok words)) :
      Sent m c (es ++ [⟨.note .tableTransferred, ()⟩]) (.ok ())

/-- What a transfer can come to. -/
inductive Transferred (m : Mailboxes) (t : TableReader) :
    List Event → Except Failure Unit → TableReader → Prop where
  | failed {es : List Event} {e : Failure} (h : Sent m t.codename es (.error e)) :
      Transferred m t es (.error e) t
  /-- It is stamped with the time when it was over. -/
  | stamped {es : List Event} (now : Duration) (h : Sent m t.codename es (.ok ())) :
      Transferred m t (es ++ [⟨.now, now⟩]) (.ok ()) { t with transferredAt? := some now }

/-- What a transfer can come to that is only made if it is due. -/
inductive Throttled (m : Mailboxes) (t : TableReader) :
    List Event → Except Failure Bool → TableReader → Prop where
  | fresh {now : Duration} (hfresh : t.isFresh now = true) :
      Throttled m t [⟨.now, now⟩] (.ok false) t
  | failed {now : Duration} {es : List Event} {e : Failure} (hstale : t.isFresh now = false)
      (h : Sent m t.codename es (.error e)) : Throttled m t (⟨.now, now⟩ :: es) (.error e) t
  /-- It is stamped with the time when it was found due. -/
  | stamped {now : Duration} {es : List Event} (hstale : t.isFresh now = false)
      (h : Sent m t.codename es (.ok ())) :
      Throttled m t (⟨.now, now⟩ :: es) (.ok true) { t with transferredAt? := some now }

/-- What mapping the table can come to: it is mapped, and nothing is asked, or
it is not, and all of it is mapped or none. -/
inductive Mapped (g : Geometry) (t : TableReader) :
    List Event → Except Failure TableMapping → TableReader → Prop where
  | kept {mapping : TableMapping} (h : t.mapping? = some mapping) : Mapped g t [] (.ok mapping) t
  | established {es : List Event} {mapping : TableMapping} (h : t.mapping? = none)
      (hes : TableMapping.Established g es (.ok mapping)) :
      Mapped g t es (.ok mapping) { t with mapping? := some mapping }
  | failed {es : List Event} {e : Failure} (h : t.mapping? = none)
      (hes : TableMapping.Established g es (.error e)) : Mapped g t es (.error e) t

variable {m : Mailboxes} {t t' : TableReader} {es : List Event}

theorem comes_require {α : Type} {o : Option α} {r : Except Failure α}
    (h : (ofAttempt (Attempt.require o)).Comes t es r t') :
    es = [] ∧ t' = t ∧ r = o.elim (.error .unsupported) .ok := by
  obtain ⟨hrun, rfl⟩ := comes_ofAttempt h
  cases o with
  | none =>
    cases hrun
    exact ⟨rfl, rfl, rfl⟩
  | some a =>
    cases hrun
    exact ⟨rfl, rfl, rfl⟩

theorem comes_geometry {r : Except Failure Geometry} (h : (geometry m).Comes t es r t') :
    LookedUp m t es r t' := by
  unfold geometry at h
  rw [comes_get] at h
  cases hlocated : t.located? with
  | some g =>
    simp only [hlocated] at h
    obtain ⟨rfl, rfl, rfl⟩ := comes_pure h
    exact .known hlocated
  | none =>
    simp only [hlocated] at h
    obtain ⟨e, hfailed, rfl⟩ | ⟨fs, gs, g, _, rfl, hfound, hrest⟩ := comes_bind h
    · obtain ⟨hreach, rfl⟩ := comes_ofAttempt hfailed
      obtain ⟨f, heq, hf, hes⟩ | ⟨_, _, heq, _⟩ := reaches_tableGeometry hreach
      · cases heq
        exact .failed hlocated hes hf hreach
      · cases heq
    · obtain ⟨hreach, rfl⟩ := comes_ofAttempt hfound
      obtain ⟨rfl, rfl, rfl⟩ := comes_modify hrest
      obtain ⟨_, heq, _⟩ | ⟨_, es, heq, hes, rfl⟩ := reaches_tableGeometry hreach
      · cases heq
      · cases heq
        rw [List.append_nil]
        exact .found hlocated hes hreach

theorem comes_sendTransfer {r : Except Failure Unit} (h : (sendTransfer m).Comes t es r t') :
    Sent m t.codename es r ∧ t' = t := by
  unfold sendTransfer at h
  rw [comes_get] at h
  cases hcommand : t.codename.transferCommand? with
  | none =>
    rw [hcommand] at h
    obtain ⟨e, hnone, rfl⟩ | ⟨_, _, _, _, _, hsome, _⟩ := comes_bind h
    · obtain ⟨rfl, rfl, heq⟩ := comes_require hnone
      cases heq
      exact ⟨.lacking hcommand, rfl⟩
    · obtain ⟨-, -, heq⟩ := comes_require hsome
      cases heq
  | some command =>
    rw [hcommand] at h
    obtain ⟨e, hnone, rfl⟩ | ⟨_, _, _, _, rfl, hsome, hrest⟩ := comes_bind h
    · obtain ⟨-, -, heq⟩ := comes_require hnone
      cases heq
    · obtain ⟨rfl, rfl, heq⟩ := comes_require hsome
      cases heq
      obtain ⟨e, hfailed, rfl⟩ | ⟨fs, _, words, _, rfl, hsent, hnoted⟩ := comes_bind hrest
      · obtain ⟨hreach, rfl⟩ := comes_ofAttempt hfailed
        obtain ⟨hes, hf⟩ := asks_send _ _ _ _ hreach
        exact ⟨.failed hcommand hes (hf e rfl) hreach, rfl⟩
      · obtain ⟨hreach, rfl⟩ := comes_ofAttempt hsent
        cases hnoted with
        | ask hnoted =>
          cases hnoted
          exact ⟨.done hcommand (asks_send _ _ _ _ hreach).1 hreach, rfl⟩

theorem comes_transfer {r : Except Failure Unit} (h : (transfer m).Comes t es r t') :
    Transferred m t es r t' := by
  obtain ⟨e, hfailed, rfl⟩ | ⟨_, _, _, _, rfl, hsent, hrest⟩ := comes_bind h
  · obtain ⟨hfailed, rfl⟩ := comes_sendTransfer hfailed
    exact .failed hfailed
  · obtain ⟨hsent, rfl⟩ := comes_sendTransfer hsent
    obtain ⟨now, _, rfl, hstamped⟩ := comes_request hrest
    cases hstamped
    exact .stamped now hsent

theorem comes_transferIfDue {r : Except Failure Bool} (h : (transferIfDue m).Comes t es r t') :
    Throttled m t es r t' := by
  obtain ⟨now, es, rfl, hrest⟩ := comes_request h
  rw [comes_get] at hrest
  cases hfresh : t.isFresh now with
  | true =>
    rw [hfresh] at hrest
    obtain ⟨rfl, rfl, rfl⟩ := comes_pure hrest
    exact .fresh hfresh
  | false =>
    rw [hfresh] at hrest
    obtain ⟨e, hfailed, rfl⟩ | ⟨_, _, _, _, rfl, hsent, hstamped⟩ := comes_bind hrest
    · obtain ⟨hfailed, rfl⟩ := comes_sendTransfer hfailed
      exact .failed hfresh hfailed
    · obtain ⟨hsent, rfl⟩ := comes_sendTransfer hsent
      obtain ⟨rfl, rfl, rfl⟩ := comes_modify hstamped
      rw [List.append_nil]
      exact .stamped hfresh hsent

theorem comes_mapping {g : Geometry} {r : Except Failure TableMapping}
    (h : (mapping g).Comes t es r t') : Mapped g t es r t' := by
  unfold mapping at h
  rw [comes_get] at h
  cases hmapping : t.mapping? with
  | some mapping =>
    simp only [hmapping] at h
    obtain ⟨rfl, rfl, rfl⟩ := comes_pure h
    exact .kept hmapping
  | none =>
    simp only [hmapping] at h
    obtain ⟨e, hfailed, rfl⟩ | ⟨_, _, mapping, _, rfl, hmapped, hrest⟩ := comes_bind h
    · obtain ⟨hes, rfl⟩ := comes_ofAttempt hfailed
      exact .failed hmapping (TableMapping.reaches_establish hes)
    · obtain ⟨hes, rfl⟩ := comes_ofAttempt hmapped
      obtain ⟨rfl, rfl, rfl⟩ := comes_modify hrest
      rw [List.append_nil]
      exact .established hmapping (TableMapping.reaches_establish hes)

/-- Looking the geometry up changes nothing but what is known of it. -/
theorem LookedUp.frame {r : Except Failure Geometry} (h : LookedUp m t es r t') :
    t' = { t with located? := t'.located? } := by
  cases h <;> rfl

theorem Transferred.frame {r : Except Failure Unit} (h : Transferred m t es r t') :
    t' = { t with transferredAt? := t'.transferredAt? } := by
  cases h <;> rfl

theorem Throttled.frame {r : Except Failure Bool} (h : Throttled m t es r t') :
    t' = { t with transferredAt? := t'.transferredAt? } := by
  cases h <;> rfl

theorem Mapped.mapping_eq {g : Geometry} {mapping : TableMapping}
    (h : Mapped g t es (.ok mapping) t') : t'.mapping? = some mapping := by
  cases h with
  | kept h => exact h
  | established => rfl

theorem Mapped.frame {g : Geometry} {r : Except Failure TableMapping} (h : Mapped g t es r t') :
    t' = { t with mapping? := t'.mapping? } := by
  cases h <;> rfl

/-! ## §4. What is true of all events of a step. -/

section Events

variable {P : Event → Prop}

theorem LookedUp.forall_events {r : Except Failure Geometry} (h : LookedUp m t es r t')
    (hinquiry : ∀ e, e.Inquiry → P e) (hnote : ∀ g, P ⟨.note (.tableLocated g), ()⟩) :
    ∀ e ∈ es, P e := by
  cases h with
  | known => exact List.forall_mem_nil _
  | failed h hes => exact fun e he => hinquiry e (hes e he)
  | found h hes =>
    refine List.forall_mem_append.2 ⟨fun e he => hinquiry e (hes e he), ?_⟩
    exact List.forall_mem_singleton.2 (hnote _)

theorem Sent.forall_events {c : Codename} {r : Except Failure Unit} (h : Sent m c es r)
    (hinquiry : ∀ e, e.Inquiry → P e) (hnote : P ⟨.note .tableTransferred, ()⟩) :
    ∀ e ∈ es, P e := by
  cases h with
  | lacking => exact List.forall_mem_nil _
  | failed h hes => exact fun e he => hinquiry e (hes e he)
  | done h hes =>
    refine List.forall_mem_append.2 ⟨fun e he => hinquiry e (hes e he), ?_⟩
    exact List.forall_mem_singleton.2 hnote

theorem Transferred.forall_events {r : Except Failure Unit} (h : Transferred m t es r t')
    (hinquiry : ∀ e, e.Inquiry → P e) (hnote : P ⟨.note .tableTransferred, ()⟩)
    (hnow : ∀ now, P ⟨.now, now⟩) : ∀ e ∈ es, P e := by
  cases h with
  | failed h => exact h.forall_events hinquiry hnote
  | stamped now h =>
    refine List.forall_mem_append.2 ⟨h.forall_events hinquiry hnote, ?_⟩
    exact List.forall_mem_singleton.2 (hnow now)

theorem Throttled.forall_events {r : Except Failure Bool} (h : Throttled m t es r t')
    (hinquiry : ∀ e, e.Inquiry → P e) (hnote : P ⟨.note .tableTransferred, ()⟩)
    (hnow : ∀ now, P ⟨.now, now⟩) : ∀ e ∈ es, P e := by
  cases h with
  | fresh => exact List.forall_mem_singleton.2 (hnow _)
  | failed hstale h | stamped hstale h =>
    exact List.forall_mem_cons.2 ⟨hnow _, h.forall_events hinquiry hnote⟩

theorem Mapped.handling {g : Geometry} {r : Except Failure TableMapping} (h : Mapped g t es r t') :
    ∀ e ∈ es, e.request.isHandling = true := by
  cases h with
  | kept => exact List.forall_mem_nil _
  | established hnone hes | failed hnone hes => exact hes.handling

end Events

/-! ## §5. Before a copy. -/

/-- A check in front of a step takes note of what is wrong and fails, or lets the
step go on. -/
theorem comes_check {α : Type} {c : Prop} [Decidable c] {d : Diagnostic} {e : Failure}
    {x : TableStep α} {r : Except Failure α}
    (h : Comes ((if c then (note d : TableStep Unit) >>= fun _ => throw e else pure ())
      >>= fun _ => x) t es r t') :
    c ∧ es = [⟨.note d, ()⟩] ∧ r = .error e ∧ t' = t ∨ ¬ c ∧ x.Comes t es r t' := by
  by_cases hc : c
  · rw [if_pos hc, bind_assoc] at h
    obtain ⟨_, _, rfl, hthrown⟩ := comes_request h
    obtain ⟨rfl, rfl, rfl⟩ := comes_throw hthrown
    exact .inl ⟨hc, rfl, rfl, rfl⟩
  · rw [if_neg hc, pure_bind] at h
    exact .inr ⟨hc, h⟩

theorem comes_ensureOpen {α : Type} {x : TableStep α} {r : Except Failure α}
    (h : (ensureOpen >>= fun _ => x).Comes t es r t') :
    t.closed = true ∧ es = [⟨.note .tableClosed, ()⟩] ∧ r = .error .unsupported ∧ t' = t ∨
      t.closed = false ∧ x.Comes t es r t' := by
  rw [← Bool.not_eq_true]
  exact comes_check h

theorem comes_ensureRoom {α : Type} {g : Geometry} {room : Nat} {x : TableStep α}
    {r : Except Failure α} (h : (ensureRoom g room >>= fun _ => x).Comes t es r t') :
    room < g.totalLength ∧ es = [⟨.note (.bufferTooShort room g.totalLength), ()⟩] ∧
        r = .error (.shortBuffer g.totalLength) ∧ t' = t ∨
      g.totalLength ≤ room ∧ x.Comes t es r t' := by
  rw [← Nat.not_lt]
  exact comes_check h

/-- What bringing a table up to date can come to whose geometry is known: a
transfer if one is due, then the mapping. -/
inductive Renewed (m : Mailboxes) (g : Geometry) (t : TableReader) :
    List Event → Except Failure TableMapping → TableReader → Prop where
  | untransferred {es : List Event} {e : Failure} {t' : TableReader}
      (h : Throttled m t es (.error e) t') : Renewed m g t es (.error e) t'
  | mapped {es fs : List Event} {b : Bool} {r : Except Failure TableMapping} {t₁ t' : TableReader}
      (h : Throttled m t es (.ok b) t₁) (hmap : Mapped g t₁ fs r t') :
      Renewed m g t (es ++ fs) r t'

/-- What getting a table ready can come to; a read also checks the room for it. -/
inductive Prepared (m : Mailboxes) (room? : Option Nat) (t : TableReader) :
    List Event → Except Failure (Geometry × TableMapping) → TableReader → Prop where
  | closed (h : t.closed = true) :
      Prepared m room? t [⟨.note .tableClosed, ()⟩] (.error .unsupported) t
  | unlocated {es : List Event} {e : Failure} {t' : TableReader} (hopen : t.closed = false)
      (h : LookedUp m t es (.error e) t') : Prepared m room? t es (.error e) t'
  | short {es : List Event} {g : Geometry} {t' : TableReader} {room : Nat}
      (hopen : t.closed = false) (h : LookedUp m t es (.ok g) t') (hroom : room? = some room)
      (hshort : room < g.totalLength) :
      Prepared m room? t (es ++ [⟨.note (.bufferTooShort room g.totalLength), ()⟩])
        (.error (.shortBuffer g.totalLength)) t'
  | renewed {es fs : List Event} {g : Geometry} {t₁ t' : TableReader}
      {r : Except Failure TableMapping} (hopen : t.closed = false)
      (h : LookedUp m t es (.ok g) t₁) (hroom : ∀ room, room? = some room → g.totalLength ≤ room)
      (hrenewed : Renewed m g t₁ fs r t') :
      Prepared m room? t (es ++ fs) (r.map (g, ·)) t'

/-- A table that was made ready was looked up and brought up to date. -/
theorem Prepared.ready {room? : Option Nat} {g : Geometry} {mapping : TableMapping}
    (h : Prepared m room? t es (.ok (g, mapping)) t') :
    ∃ fs gs t₁, es = fs ++ gs ∧ LookedUp m t fs (.ok g) t₁ ∧
      Renewed m g t₁ gs (.ok mapping) t' := by
  generalize hr : Except.ok (g, mapping) = r at h
  cases h with
  | closed | unlocated | short => cases hr
  | @renewed fs gs g' t₁ t' r' hopen hlookup hroom hrenewed =>
    cases r' with
    | error f => cases hr
    | ok mapping' =>
      cases hr
      exact ⟨fs, gs, t₁, rfl, hlookup, hrenewed⟩

/-- A closed table is not made ready. -/
theorem Prepared.refused {room? : Option Nat} {r : Except Failure (Geometry × TableMapping)}
    (h : Prepared m room? t es r t') (hclosed : t.closed = true) :
    es = [⟨.note .tableClosed, ()⟩] ∧ r = .error .unsupported ∧ t' = t := by
  cases h with
  | closed => exact ⟨rfl, rfl, rfl⟩
  | unlocated hopen | short hopen | renewed hopen => cases hopen.symm.trans hclosed

/-- The part that `prepare` and `prepareFor` have in common. -/
theorem comes_renewed {α : Type} {g : Geometry} {f : TableMapping → α} {r : Except Failure α}
    (h : Comes (do
      let _ ← transferIfDue m
      let mapping ← mapping g
      return f mapping) t es r t') :
    ∃ r', Renewed m g t es r' t' ∧ r = r'.map f := by
  obtain ⟨e, hfailed, rfl⟩ | ⟨fs, _, b, t₁, rfl, hdue, hrest⟩ := comes_bind h
  · exact ⟨_, .untransferred (comes_transferIfDue hfailed), rfl⟩
  · obtain ⟨e, hfailed, rfl⟩ | ⟨gs, _, mapping, _, rfl, hmapped, hdone⟩ := comes_bind hrest
    · exact ⟨_, .mapped (comes_transferIfDue hdue) (comes_mapping hfailed), rfl⟩
    · obtain ⟨rfl, rfl, rfl⟩ := comes_pure hdone
      rw [List.append_nil]
      exact ⟨_, .mapped (comes_transferIfDue hdue) (comes_mapping hmapped), rfl⟩

theorem comes_prepare {r : Except Failure Geometry} (h : (prepare m).Comes t es r t') :
    ∃ r', Prepared m none t es r' t' ∧ r = r'.map Prod.fst := by
  obtain ⟨hclosed, rfl, rfl, rfl⟩ | ⟨hopen, hbody⟩ := comes_ensureOpen h
  · exact ⟨_, .closed hclosed, rfl⟩
  · obtain ⟨e, hfailed, rfl⟩ | ⟨fs, gs, g, t₁, rfl, hlocated, hrest⟩ := comes_bind hbody
    · exact ⟨_, .unlocated hopen (comes_geometry hfailed), rfl⟩
    · obtain ⟨r', hrenewed, rfl⟩ := comes_renewed (f := fun _ => g) hrest
      refine ⟨_, .renewed hopen (comes_geometry hlocated) ?_ hrenewed, ?_⟩
      · intro room hroom
        cases hroom
      · cases r' <;> rfl

theorem comes_prepareFor {room : Nat} {r : Except Failure (Geometry × TableMapping)}
    (h : (prepareFor m room).Comes t es r t') : Prepared m (some room) t es r t' := by
  obtain ⟨hclosed, rfl, rfl, rfl⟩ | ⟨hopen, hbody⟩ := comes_ensureOpen h
  · exact .closed hclosed
  · obtain ⟨e, hfailed, rfl⟩ | ⟨fs, gs, g, t₁, rfl, hlocated, hrest⟩ := comes_bind hbody
    · exact .unlocated hopen (comes_geometry hfailed)
    · obtain ⟨hshort, rfl, rfl, rfl⟩ | ⟨hfits, hrenew⟩ := comes_ensureRoom hrest
      · exact .short hopen (comes_geometry hlocated) rfl hshort
      · obtain ⟨r', hrenewed, rfl⟩ := comes_renewed hrenew
        refine .renewed hopen (comes_geometry hlocated) ?_ hrenewed
        intro room' hroom
        cases hroom
        exact hfits

/-! ## §6. Reads, and the end. -/

/-- What a read can come to. -/
inductive Copied (m : Mailboxes) (buffer : Bytes) (t : TableReader) :
    List Event → Except Failure Nat × Bytes → TableReader → Prop where
  | failed {es : List Event} {e : Failure} {t' : TableReader}
      (h : Prepared m (some buffer.length) t es (.error e) t') :
      Copied m buffer t es (.error e, buffer) t'
  | copied {es fs : List Event} {g : Geometry} {mapping : TableMapping} {filled : Bytes}
      {t' : TableReader} (h : Prepared m (some buffer.length) t es (.ok (g, mapping)) t')
      (hfs : (mapping.copyInto buffer).Reaches fs filled) :
      Copied m buffer t (es ++ fs) (.ok g.totalLength, filled) t'

theorem reaches_read {buffer : Bytes} {r : Except Failure Nat × Bytes}
    (h : ((read m buffer).run t).Reaches es (r, t')) : Copied m buffer t es r t' := by
  obtain ⟨fs, gs, ⟨outcome, t₁⟩, rfl, hprepared, hrest⟩ := reaches_bind_iff.1 h
  cases outcome with
  | error e =>
    obtain ⟨rfl, heq⟩ := reaches_done_iff.1 hrest
    cases heq
    rw [List.append_nil]
    exact .failed (comes_prepareFor hprepared)
  | ok located =>
    obtain ⟨gs, _, filled, rfl, hcopied, hdone⟩ := Program.reaches_lift hrest
    obtain ⟨rfl, heq⟩ := reaches_done_iff.1 hdone
    cases heq
    rw [List.append_nil]
    exact .copied (comes_prepareFor hprepared) hcopied

/-- What closing a table can come to: what is mapped is given back. -/
inductive Closed (t : TableReader) : List Event → TableReader → Prop where
  | bare (h : t.mapping? = none) : Closed t [] { t with closed := true, mapping? := none }
  | released {mapping : TableMapping} (h : t.mapping? = some mapping) :
      Closed t (TableMapping.returned mapping.regions ++ [⟨.note .tableReleased, ()⟩])
        { t with closed := true, mapping? := none }

theorem Closed.forall_events {P : Event → Prop} (h : Closed t es t')
    (hunmap : ∀ place length, P ⟨.unmap place length, ()⟩)
    (hnote : P ⟨.note .tableReleased, ()⟩) : ∀ e ∈ es, P e := by
  cases h with
  | bare => exact List.forall_mem_nil _
  | released h =>
    refine List.forall_mem_append.2 ⟨?_, List.forall_mem_singleton.2 hnote⟩
    intro e he
    obtain ⟨region, -, rfl⟩ := List.mem_map.1 he
    exact hunmap _ _

theorem Closed.frame (h : Closed t es t') : t' = { t with closed := true, mapping? := none } := by
  cases h <;> rfl

theorem reaches_close {r : Unit} (h : (close.run t).Reaches es (r, t')) : Closed t es t' := by
  rcases t with ⟨codename, interval, located?, transferredAt?, mapping?, closed⟩
  cases mapping? with
  | none =>
    obtain ⟨rfl, heq⟩ := reaches_done_iff.1 h
    cases heq
    exact .bare rfl
  | some mapping =>
    obtain ⟨_, _, _, rfl, hreleased, hrest⟩ :=
      Program.reaches_lift (p := mapping.release) (f := fun _ => liftM (note .tableReleased)) h
    cases TableMapping.reaches_release hreleased
    cases hrest with
    | ask hdone =>
      cases hdone
      exact .released rfl

end TableReader
end ManagementUnit
