/-
  ManagementUnit.Proofs.Table.Throttle
  ────────────────────────────────
  How often the table is transferred.

  A transfer is stamped with the one time that the clock is read for it: a forced
  one after the command, one that fell due before it.  So the stamp that a table
  keeps can be read off its journal, and with it what the throttled path does when
  it is reached: it sends the command if and only if no transfer succeeded yet or
  the last one is stamped more than the interval ago.

  Main results:
    * `Performed.gated`          — a use of the throttled path comes to the throttle
      once, or fails before.
    * `transferredAt_of_history` — the stamp of a table is that of its last transfer.
    * `issues_of_history`        — the command is issued if and only if it falls due.
    * `apart_of_history`         — so no transfer of the throttle follows another one
      within the interval.
    * `refresh_throttled`        — what the throttle makes of any row of uses.
-/
import ManagementUnit.Proofs.Table.Uses

namespace ManagementUnit

/-! ## §1. Readings of the clock. -/

/-- The time that is read. -/
def Event.reading? : Event → Option Duration
  | ⟨.now, time⟩ => some time
  | _ => none

/-- The times that are read, in order. -/
def readings (es : List Event) : List Duration := es.filterMap Event.reading?

theorem readings_append (es fs : List Event) : readings (es ++ fs) = readings es ++ readings fs :=
  List.filterMap_append

theorem mem_readings_journal {κ ω τ : Type} {us : List (Use κ ω τ)} {u : Use κ ω τ} {a : Duration}
    (hu : u ∈ us) (ha : a ∈ readings u.events) : a ∈ readings (journal us) := by
  obtain ⟨e, he, hread⟩ := List.mem_filterMap.1 ha
  exact List.mem_filterMap.2 ⟨e, List.mem_flatMap.2 ⟨u, hu, he⟩, hread⟩

/-- A row of events with one reading splits there in one way only. -/
theorem split_reading {es fs es' fs' : List Event} {a b : Duration}
    (h : es ++ ⟨.now, a⟩ :: fs = es' ++ ⟨.now, b⟩ :: fs') (hes : ∀ e ∈ es, e.reading? = none)
    (hfs : ∀ e ∈ fs, e.reading? = none) : es = es' ∧ a = b ∧ fs = fs' := by
  -- one front is the longer one by `mid`, which would begin with the other reading
  obtain ⟨mid, rfl, hmid⟩ | ⟨mid, rfl, hmid⟩ := List.append_eq_append_iff.1 h
  · cases mid with
    | nil =>
      cases hmid
      exact ⟨(List.append_nil _).symm, rfl, rfl⟩
    | cons e mid =>
      cases hmid
      cases hfs ⟨.now, b⟩ (by simp)
  · cases mid with
    | nil =>
      cases hmid
      exact ⟨List.append_nil _, rfl, rfl⟩
    | cons e mid =>
      cases hmid
      cases hes ⟨.now, b⟩ (by simp)

/-! ## §2. Stamps. -/

/-- Whether a transfer is noted. -/
def Event.isTransfer : Event → Bool
  | ⟨.note .tableTransferred, _⟩ => true
  | _ => false

/-- The stamp of the transfer that is made, if one is: the time that is read
meanwhile. -/
def stamp? (es : List Event) : Option Duration :=
  if es.any Event.isTransfer then es.findSome? Event.reading? else none

/-- The stamp of the last transfer. -/
def lastStamp (us : List TableUse) : Option Duration :=
  us.reverse.findSome? fun u => stamp? u.events

theorem lastStamp_append (us vs : List TableUse) :
    lastStamp (us ++ vs) = (lastStamp vs).or (lastStamp us) := by
  simp only [lastStamp, List.reverse_append, List.findSome?_append]

theorem lastStamp_singleton (u : TableUse) : lastStamp [u] = stamp? u.events := by
  simp [lastStamp]

theorem lastStamp_eq_none_iff {us : List TableUse} :
    lastStamp us = none ↔ ∀ u ∈ us, stamp? u.events = none := by
  simp [lastStamp]

theorem lastStamp_eq_some {us : List TableUse} {a : Duration} (h : lastStamp us = some a) :
    ∃ u ∈ us, stamp? u.events = some a := by
  obtain ⟨u, hu, hstamp⟩ := List.exists_of_findSome?_eq_some h
  exact ⟨u, List.mem_reverse.1 hu, hstamp⟩

/-- The last transfer is the one that no later use takes the place of. -/
theorem lastStamp_of_last {before mid : List TableUse} {u : TableUse} {a : Duration}
    (ha : stamp? u.events = some a) (hmid : ∀ w ∈ mid, stamp? w.events = none) :
    lastStamp (before ++ u :: mid) = some a := by
  rw [← List.singleton_append, lastStamp_append, lastStamp_append, lastStamp_singleton, ha,
    lastStamp_eq_none_iff.2 hmid]
  rfl

/-- At the time `now` no transfer succeeded yet, or the last one is stamped more than
the interval before. -/
def FallsDue (interval : Duration) (us : List TableUse) (now : Duration) : Prop :=
  ∀ last, lastStamp us = some last → interval < now.since last

theorem fallsDue_iff {interval now a : Duration} {us : List TableUse} (h : lastStamp us = some a) :
    FallsDue interval us now ↔ interval < now.since a := by
  constructor
  · intro hdue
    exact hdue a h
  · intro hlt last hlast
    cases h.symm.trans hlast
    exact hlt

/-- A stamp is a time that was read. -/
theorem mem_readings_of_stamp {es : List Event} {a : Duration} (h : stamp? es = some a) :
    a ∈ readings es := by
  unfold stamp? at h
  split at h
  · obtain ⟨e, he, hread⟩ := List.exists_of_findSome?_eq_some h
    exact List.mem_filterMap.2 ⟨e, he, hread⟩
  · cases h

/-- On a clock that does not run backwards, what is read later is not less. -/
theorem readings_le {before after : List TableUse} {u v : TableUse} {a b : Duration}
    (hclock : (readings (journal (before ++ u :: after))).Pairwise (· ≤ ·))
    (ha : a ∈ readings u.events) (hv : v ∈ after) (hb : b ∈ readings v.events) : a ≤ b := by
  have hsplit : journal (u :: after) = u.events ++ journal after := List.flatMap_cons
  rw [journal_append, hsplit, readings_append, readings_append] at hclock
  obtain ⟨-, hrest, -⟩ := List.pairwise_append.1 hclock
  obtain ⟨-, -, hle⟩ := List.pairwise_append.1 hrest
  exact hle a ha b (mem_readings_journal hv hb)

/-- Nor is the stamp of the last transfer less than an earlier one. -/
theorem le_lastStamp {before mid after : List TableUse} {u : TableUse} {a : Duration}
    (hclock : (readings (journal (before ++ u :: (mid ++ after)))).Pairwise (· ≤ ·))
    (ha : stamp? u.events = some a) :
    ∃ last, lastStamp (before ++ u :: mid) = some last ∧ a ≤ last := by
  -- the last stamp is that of `u`, or one of a use between
  rw [← List.singleton_append, lastStamp_append, lastStamp_append, lastStamp_singleton, ha]
  cases hmid : lastStamp mid with
  | none => exact ⟨a, rfl, Nat.le_refl _⟩
  | some last =>
    obtain ⟨w, hw, hstamp⟩ := lastStamp_eq_some hmid
    refine ⟨last, rfl, ?_⟩
    exact readings_le hclock (mem_readings_of_stamp ha) (List.mem_append_left _ hw)
      (mem_readings_of_stamp hstamp)

/-- Nothing is read off the clock, and no transfer is noted. -/
def Timeless (es : List Event) : Prop := ∀ e ∈ es, e.reading? = none ∧ e.isTransfer = false

theorem Timeless.append {es fs : List Event} (hes : Timeless es) (hfs : Timeless fs) :
    Timeless (es ++ fs) := List.forall_mem_append.2 ⟨hes, hfs⟩

theorem Timeless.untransferred {es : List Event} (h : Timeless es) :
    es.any Event.isTransfer = false := by
  refine List.any_eq_false.2 ?_
  intro e he
  rw [(h e he).2]
  exact Bool.false_ne_true

theorem Timeless.stamp {es : List Event} (h : Timeless es) : stamp? es = none := by
  rw [stamp?, h.untransferred]
  rfl

/-- One reading is the stamp of what is transferred around it. -/
theorem stamp?_reading {es fs : List Event} (hes : Timeless es) (now : Duration) :
    stamp? (es ++ ⟨.now, now⟩ :: fs) = if fs.any Event.isTransfer then some now else none := by
  have hfind : es.findSome? Event.reading? = none :=
    List.findSome?_eq_none_iff.2 fun e he => (hes e he).1
  rw [stamp?, List.any_append, hes.untransferred, List.findSome?_append, hfind]
  rfl

/-- So it is of what is transferred before it. -/
theorem stamp?_concat {es : List Event} (hes : ∀ e ∈ es, e.reading? = none) (now : Duration) :
    stamp? (es ++ [⟨.now, now⟩]) = if es.any Event.isTransfer then some now else none := by
  rw [stamp?, List.any_append, List.findSome?_append, List.findSome?_eq_none_iff.2 hes,
    show [(⟨.now, now⟩ : Event)].any Event.isTransfer = false from rfl, Bool.or_false]
  rfl

theorem Event.Inquiry.timeless {e : Event} (h : e.Inquiry) :
    e.reading? = none ∧ e.isTransfer = false := by
  cases h with
  | read | write => exact ⟨rfl, rfl⟩
  | @note d hd => cases d <;> first | exact ⟨rfl, rfl⟩ | cases hd

theorem timeless_of_inquiry {es : List Event} (h : ∀ e ∈ es, e.Inquiry) : Timeless es :=
  fun e he => (h e he).timeless

/-! ## §3. What is asked of the platform. -/

/-- The table commands that go through the throttle. -/
def TableOperation.isThrottled : TableOperation → Bool
  | transferIfDue | prepare | read _ => true
  | geometry | transfer | close => false

/-- The use comes to the throttle when the clock says `now`, and `rest` is what
happens after that. -/
def TableUse.Meets (u : TableUse) (now : Duration) (rest : List Event) : Prop :=
  u.call.operation.isThrottled = true ∧ ∃ front, u.events = front ++ ⟨.now, now⟩ :: rest

theorem TableUse.Meets.mem_readings {u : TableUse} {now : Duration} {rest : List Event}
    (h : u.Meets now rest) : now ∈ readings u.events := by
  obtain ⟨-, front, hevents⟩ := h
  rw [hevents, readings_append]
  exact List.mem_append_right _ List.mem_cons_self

/-- A transfer command is issued; a mailbox takes note of what it is about to send. -/
def Issues (command : TransferCommand) (es : List Event) : Prop :=
  ⟨.note (.requestSent .rsmu command.opcode (.first command.argument)), ()⟩ ∈ es

theorem timeless_of_handling {es : List Event} (h : ∀ e ∈ es, e.request.isHandling = true) :
    Timeless es := by
  rintro ⟨request, reply⟩ he
  cases Request.handling_of_isHandling (h _ he) <;> exact ⟨rfl, rfl⟩

theorem isAccess_of_handling {es : List Event} (h : ∀ e ∈ es, e.request.isHandling = true) :
    ∀ e ∈ es, e.request.isAccess = false := by
  rintro ⟨request, reply⟩ he
  cases Request.handling_of_isHandling (h _ he) <;> rfl

theorem not_issues_of_handling {command : TransferCommand} {es : List Event}
    (h : ∀ e ∈ es, e.request.isHandling = true) : ¬ Issues command es := by
  intro hissues
  cases h _ hissues

/-- Every generation with a transfer command has the mailbox to send it through. -/
theorem Codename.generalPurpose_of_transferCommand {c : Codename} {command : TransferCommand}
    (h : c.transferCommand? = some command) : ∃ b, c.generalPurpose? = some b := by
  cases c <;> first | exact ⟨_, rfl⟩ | cases h

theorem Mailboxes.registers_of_transferCommand {m : Mailboxes} {c : Codename}
    {command : TransferCommand} (h : c.transferCommand? = some command) (hm : m.codename = c) :
    m.registers? .rsmu ≠ none := by
  obtain ⟨b, hb⟩ := Codename.generalPurpose_of_transferCommand h
  rw [registers?, hm, Codename.registers?, hb]
  exact Option.some_ne_none b

/-- A command that is sent through a mailbox is noted first; without the mailbox
nothing happens. -/
theorem reaches_send {m : Mailboxes} {opcode : UInt32} {sent : Arguments} {es : List Event}
    {r : Except Failure Arguments} (h : (m.send opcode sent).run.Reaches es r) :
    (m.registers? .rsmu = none ∧ es = [] ∧ r = .error .unsupported) ∨
      ∃ fs, es = ⟨.note (.requestSent .rsmu opcode sent), ()⟩ :: fs := by
  cases hregisters : m.registers? .rsmu with
  | none =>
    rw [Mailboxes.send, Mailboxes.execute, hregisters] at h
    cases h
    exact .inl ⟨rfl, rfl, rfl⟩
  | some b =>
    rw [Mailboxes.send, Mailboxes.execute, hregisters] at h
    cases h with
    | ask => exact .inr ⟨_, rfl⟩

namespace TableReader

variable {m : Mailboxes} {t t' : TableReader} {es fs : List Event} {now : Duration}
  {command : TransferCommand} {s? : Option Duration}

/-! ## §4. At the throttle. -/

theorem isFresh_eq_true_iff :
    t.isFresh now = true ↔ ∃ last, t.transferredAt? = some last ∧ now.since last ≤ t.interval := by
  unfold isFresh
  cases t.transferredAt? with
  | none => simp
  | some last => simp

theorem isFresh_eq_false_iff :
    t.isFresh now = false ↔ ∀ last, t.transferredAt? = some last → t.interval < now.since last := by
  rw [← Bool.not_eq_true, isFresh_eq_true_iff]
  constructor
  · intro h last hlast
    exact Nat.lt_of_not_le fun hle => h ⟨last, hlast, hle⟩
  · rintro h ⟨last, hlast, hle⟩
    exact Nat.not_le_of_lt (h last hlast) hle

theorem Sent.reading {c : Codename} {r : Except Failure Unit} (h : Sent m c es r) :
    ∀ e ∈ es, e.reading? = none := h.forall_events (fun _ he => he.timeless.1) rfl

/-- Whether a transfer is noted tells whether the command succeeded. -/
theorem Sent.isTransfer {c : Codename} {r : Except Failure Unit} (h : Sent m c es r) :
    es.any Event.isTransfer = r.isOk := by
  cases h with
  | lacking => rfl
  | failed h hes => exact (timeless_of_inquiry hes).untransferred
  | done h hes =>
    rw [List.any_append]
    exact Bool.or_true _

/-- The command itself makes all of the configuration accesses. -/
theorem Sent.sending {c : Codename} {r : Except Failure Unit} (h : Sent m c es r)
    (hcommand : c.transferCommand? = some command) :
    ∃ sent rest reply, es = sent ++ rest ∧
      (m.send command.opcode (.first command.argument)).run.Reaches sent reply ∧
      reply.isOk = r.isOk ∧ ∀ e ∈ rest, e.request.isAccess = false := by
  cases h with
  | lacking h => cases h.symm.trans hcommand
  | failed h hes hf hreach =>
    cases h.symm.trans hcommand
    exact ⟨_, [], _, (List.append_nil _).symm, hreach, rfl, List.forall_mem_nil _⟩
  | done h hes hreach =>
    cases h.symm.trans hcommand
    exact ⟨_, _, _, rfl, hreach, rfl, List.forall_mem_singleton.2 rfl⟩

/-- What a table does after the reading `now` at the throttle, and the stamp that it
keeps. -/
inductive Decided (m : Mailboxes) (t : TableReader) (now : Duration) :
    List Event → Option Duration → Prop where
  | fresh {es : List Event} (hfresh : t.isFresh now = true)
      (hes : ∀ e ∈ es, e.request.isHandling = true) : Decided m t now es t.transferredAt?
  | stale {es fs : List Event} {r : Except Failure Unit} (hstale : t.isFresh now = false)
      (hsent : Sent m t.codename es r) (hfs : ∀ e ∈ fs, e.request.isHandling = true) :
      Decided m t now (es ++ fs) (if r.isOk then some now else t.transferredAt?)

theorem Decided.append (h : Decided m t now es s?) (hfs : ∀ e ∈ fs, e.request.isHandling = true) :
    Decided m t now (es ++ fs) s? := by
  cases h with
  | fresh hfresh hes => exact .fresh hfresh (List.forall_mem_append.2 ⟨hes, hfs⟩)
  | stale hstale hsent hes =>
    rw [List.append_assoc]
    exact .stale hstale hsent (List.forall_mem_append.2 ⟨hes, hfs⟩)

/-- The throttle does not look at the geometry. -/
theorem Decided.relocated {located? : Option Geometry}
    (h : Decided m { t with located? := located? } now es s?) : Decided m t now es s? := by
  cases h with
  | fresh hfresh hes => exact .fresh hfresh hes
  | stale hstale hsent hfs => exact .stale hstale hsent hfs

/-- The clock is not read again. -/
theorem Decided.reading (h : Decided m t now es s?) : ∀ e ∈ es, e.reading? = none := by
  have hhandling : ∀ {fs : List Event}, (∀ e ∈ fs, e.request.isHandling = true) →
      ∀ e ∈ fs, e.reading? = none := fun hfs e he => (timeless_of_handling hfs e he).1
  cases h with
  | fresh hfresh hes => exact hhandling hes
  | stale hstale hsent hfs => exact List.forall_mem_append.2 ⟨hsent.reading, hhandling hfs⟩

/-- The stamp is the reading if a transfer succeeded, and stays otherwise. -/
theorem Decided.stamp (h : Decided m t now es s?) :
    s? = (if es.any Event.isTransfer then some now else none).or t.transferredAt? := by
  cases h with
  | fresh hfresh hes =>
    rw [(timeless_of_handling hes).untransferred]
    rfl
  | @stale es fs r hstale hsent hfs =>
    rw [List.any_append, hsent.isTransfer, (timeless_of_handling hfs).untransferred, Bool.or_false]
    cases r.isOk <;> rfl

/-- Nothing is sent before the table is stale; then the command is sent once, and
a transfer is noted if it succeeds. -/
theorem Decided.sending (h : Decided m t now es s?)
    (hcommand : t.codename.transferCommand? = some command) :
    (t.isFresh now = true ∧ ∀ e ∈ es, e.request.isHandling = true) ∨
      t.isFresh now = false ∧ ∃ sent rest reply, es = sent ++ rest ∧
        (m.send command.opcode (.first command.argument)).run.Reaches sent reply ∧
        es.any Event.isTransfer = reply.isOk ∧ ∀ e ∈ rest, e.request.isAccess = false := by
  cases h with
  | fresh hfresh hes => exact .inl ⟨hfresh, hes⟩
  | @stale es fs r hstale hsent hfs =>
    obtain ⟨sent, rest, reply, rfl, hreach, hok, hrest⟩ := hsent.sending hcommand
    refine .inr ⟨hstale, sent, rest ++ fs, reply, List.append_assoc _ _ _, hreach, ?_, ?_⟩
    · rw [List.any_append, hsent.isTransfer, (timeless_of_handling hfs).untransferred,
        Bool.or_false, hok]
    · exact List.forall_mem_append.2 ⟨hrest, isAccess_of_handling hfs⟩

/-- As long as the table is fresh, the rest is mapping and copying. -/
theorem Decided.spared (h : Decided m t now es s?) (hfresh : t.isFresh now = true) :
    ∀ e ∈ es, e.request.isHandling = true := by
  cases h with
  | fresh _ hes => exact hes
  | stale hstale => cases hstale.symm.trans hfresh

/-- The command is issued if and only if the last transfer is not recent enough. -/
theorem Decided.issues_iff (h : Decided m t now es s?)
    (hcommand : t.codename.transferCommand? = some command)
    (hregisters : m.registers? .rsmu ≠ none) : Issues command es ↔ t.isFresh now = false := by
  obtain ⟨hfresh, hes⟩ | ⟨hstale, sent, rest, reply, rfl, hreach, -⟩ := h.sending hcommand
  · rw [hfresh]
    exact iff_of_false (not_issues_of_handling hes) Bool.noConfusion
  · refine iff_of_true ?_ hstale
    obtain ⟨hnone, -⟩ | ⟨fs, rfl⟩ := reaches_send hreach
    · exact absurd hnone hregisters
    · exact List.mem_cons_self

/-! ## §5. One use. -/

theorem Throttled.decided {r : Except Failure Bool} (h : Throttled m t es r t') :
    ∃ now rest, es = ⟨.now, now⟩ :: rest ∧ Decided m t now rest t'.transferredAt? ∧
      (r.isOk = true → t'.isFresh now = true) := by
  cases h with
  | fresh hfresh => exact ⟨_, [], rfl, .fresh hfresh (List.forall_mem_nil _), fun _ => hfresh⟩
  | failed hstale hsent =>
    refine ⟨_, _, rfl, ?_, Bool.noConfusion⟩
    have hdecided := Decided.stale hstale hsent (List.forall_mem_nil _)
    rwa [List.append_nil] at hdecided
  | @stamped now es hstale hsent =>
    refine ⟨now, es, rfl, ?_, fun _ => isFresh_eq_true_iff.2 ⟨now, rfl, ?_⟩⟩
    · have hdecided := Decided.stale hstale hsent (List.forall_mem_nil _)
      rwa [List.append_nil] at hdecided
    · show now.nanos - now.nanos ≤ _
      omega

/-- As long as the last transfer is recent enough, none is reported due. -/
theorem Throttled.spared {front rest : List Event} {r : Except Failure Bool}
    (h : Throttled m t es r t') (hes : es = front ++ ⟨.now, now⟩ :: rest)
    (hfresh : t.isFresh now = true) : r = .ok false := by
  have hrecent : ∀ {a : Duration} {fs : List Event} {r : Except Failure Unit},
      Sent m t.codename fs r → [] ++ ⟨.now, a⟩ :: fs = front ++ ⟨.now, now⟩ :: rest →
      t.isFresh a ≠ false := by
    intro a fs r hsent heq
    -- the command does not read the clock again
    obtain ⟨-, rfl, -⟩ := split_reading heq (List.forall_mem_nil _) hsent.reading
    rw [hfresh]
    exact Bool.noConfusion
  cases h with
  | fresh => rfl
  | failed hstale hsent | stamped hstale hsent => exact absurd hstale (hrecent hsent hes)

theorem Renewed.decided {g : Geometry} {r : Except Failure TableMapping}
    (h : Renewed m g t es r t') :
    ∃ now rest, es = ⟨.now, now⟩ :: rest ∧ Decided m t now rest t'.transferredAt? ∧
      (r.isOk = true → t'.isFresh now = true) := by
  cases h with
  | untransferred h =>
    obtain ⟨now, rest, rfl, hdecided, -⟩ := h.decided
    exact ⟨now, rest, rfl, hdecided, Bool.noConfusion⟩
  | mapped h hmap =>
    obtain ⟨now, rest, rfl, hdecided, hfresh⟩ := h.decided
    rw [hmap.frame]
    exact ⟨now, _, rfl, hdecided.append hmap.handling, fun _ => hfresh rfl⟩

theorem LookedUp.timeless {r : Except Failure Geometry} (h : LookedUp m t es r t') :
    Timeless es := h.forall_events (fun _ he => he.timeless) fun _ => ⟨rfl, rfl⟩

/-- How a use comes to the throttle; `ok` tells whether it succeeds. -/
inductive Gated (m : Mailboxes) (t : TableReader) :
    List Event → TableReader → (ok : Bool) → Prop where
  /-- It fails before. -/
  | unmet {es : List Event} {t' : TableReader} (hes : Timeless es)
      (hsame : t'.transferredAt? = t.transferredAt?) : Gated m t es t' false
  /-- It comes there once; if it succeeds, the last transfer is recent then. -/
  | met {front rest : List Event} {now : Duration} {t' : TableReader} {ok : Bool}
      (hfront : Timeless front) (h : Decided m t now rest t'.transferredAt?)
      (hfresh : ok = true → t'.isFresh now = true) :
      Gated m t (front ++ ⟨.now, now⟩ :: rest) t' ok

theorem Prepared.gated {room? : Option Nat} {r : Except Failure (Geometry × TableMapping)}
    (h : Prepared m room? t es r t') : Gated m t es t' r.isOk := by
  cases h with
  | closed => exact .unmet (List.forall_mem_singleton.2 ⟨rfl, rfl⟩) rfl
  | unlocated hopen h => exact .unmet h.timeless (by rw [h.frame])
  | short hopen h =>
    exact .unmet (h.timeless.append (List.forall_mem_singleton.2 ⟨rfl, rfl⟩)) (by rw [h.frame])
  | @renewed es fs g t₁ t' r hopen h hroom hrenewed =>
    obtain ⟨now, rest, rfl, hdecided, hfresh⟩ := hrenewed.decided
    refine .met h.timeless ?_ ?_
    · rw [h.frame] at hdecided
      exact hdecided.relocated
    · intro hok
      refine hfresh ?_
      cases r with
      | ok mapping => rfl
      | error f => cases hok

theorem Performed.reached {outcome : TableOutcome}
    (h : Performed m t .transferIfDue es outcome t') : ∃ now rest, es = ⟨.now, now⟩ :: rest := by
  cases h with
  | transferIfDue h =>
    obtain ⟨now, rest, heq, -⟩ := h.decided
    exact ⟨now, rest, heq⟩

theorem Performed.spared {front rest : List Event} {outcome : TableOutcome}
    (h : Performed m t .transferIfDue es outcome t') (hes : es = front ++ ⟨.now, now⟩ :: rest)
    (hfresh : t.isFresh now = true) : outcome = .transferIfDue (.ok false) := by
  cases h with
  | transferIfDue h => rw [h.spared hes hfresh]

/-- A use of the throttled path comes to the throttle or fails before. -/
theorem Performed.gated {operation : TableOperation} {outcome : TableOutcome}
    (h : Performed m t operation es outcome t') (hthrottled : operation.isThrottled = true) :
    Gated m t es t' outcome.failure?.isNone := by
  cases h with
  | geometry | transfer | close => cases hthrottled
  | @transferIfDue es r t' h =>
    obtain ⟨now, rest, rfl, hdecided, hfresh⟩ := h.decided
    have hnil : Timeless [] := List.forall_mem_nil _
    refine .met hnil hdecided ?_
    intro hok
    refine hfresh ?_
    cases r with
    | ok b => rfl
    | error f => cases hok
  | @prepare es r t' h =>
    have hgated := h.gated
    cases r <;> exact hgated
  | read h =>
    cases h with
    | failed h => exact h.gated
    | copied h hfs =>
      have hgated := h.gated
      cases hgated with
      | met hfront hdecided hfresh =>
        rw [List.append_assoc, List.cons_append]
        exact .met hfront (hdecided.append (TableMapping.handling_of_copyInto hfs)) hfresh

theorem Performed.timeless {operation : TableOperation} {outcome : TableOutcome}
    (h : Performed m t operation es outcome t') (hthrottled : operation.isThrottled = false)
    (hforced : operation ≠ .transfer) : Timeless es ∧ t'.transferredAt? = t.transferredAt? := by
  cases h with
  | transferIfDue | prepare | read => cases hthrottled
  | transfer => exact absurd rfl hforced
  | geometry h => exact ⟨h.timeless, by rw [h.frame]⟩
  | close h =>
    refine ⟨h.forall_events (fun _ _ => ⟨rfl, rfl⟩) ⟨rfl, rfl⟩, ?_⟩
    rw [h.frame]

theorem Transferred.stamp {r : Except Failure Unit} (h : Transferred m t es r t') :
    t'.transferredAt? = (stamp? es).or t.transferredAt? := by
  cases h with
  | failed hsent =>
    rw [stamp?, hsent.isTransfer]
    rfl
  | stamped now hsent =>
    rw [stamp?_concat hsent.reading, hsent.isTransfer]
    rfl

/-- The stamp of a table is that of the last transfer, before and after a use. -/
theorem Performed.stamp {operation : TableOperation} {outcome : TableOutcome}
    (h : Performed m t operation es outcome t') :
    t'.transferredAt? = (stamp? es).or t.transferredAt? := by
  -- the throttled path, a forced transfer, and what transfers nothing
  by_cases hthrottled : operation.isThrottled = true
  · have hgated := h.gated hthrottled
    generalize outcome.failure?.isNone = ok at hgated
    cases hgated with
    | unmet hes hsame =>
      rw [hes.stamp, hsame]
      rfl
    | met hfront hdecided hfresh => rw [stamp?_reading hfront, hdecided.stamp]
  · by_cases hforced : operation = .transfer
    · subst hforced
      cases h with
      | transfer h => exact h.stamp
    · obtain ⟨hes, hsame⟩ := h.timeless (Bool.eq_false_iff.2 hthrottled) hforced
      rw [hes.stamp, hsame]
      rfl

/-- What a forced transfer comes to, and its stamp: the time after the command. -/
inductive Forced (m : Mailboxes) (command : TransferCommand) :
    List Event → TableOutcome → Option Duration → Prop where
  | failed {es : List Event} {f : Failure}
      (h : (m.send command.opcode (.first command.argument)).run.Reaches es (.error f)) :
      Forced m command es (.transfer (.error f)) none
  | stamped {es : List Event} {words : Arguments} (now : Duration)
      (h : (m.send command.opcode (.first command.argument)).run.Reaches es (.ok words)) :
      Forced m command (es ++ [⟨.note .tableTransferred, ()⟩, ⟨.now, now⟩]) (.transfer (.ok ()))
        (some now)

theorem Performed.forced {outcome : TableOutcome} (h : Performed m t .transfer es outcome t')
    (hcommand : t.codename.transferCommand? = some command) :
    Forced m command es outcome (stamp? es) := by
  cases h with
  | transfer h =>
    cases h with
    | failed hsent =>
      rw [stamp?, hsent.isTransfer]
      cases hsent with
      | lacking h => cases h.symm.trans hcommand
      | failed h hes hf hreach =>
        cases h.symm.trans hcommand
        exact .failed hreach
    | stamped now hsent =>
      rw [stamp?_concat hsent.reading, hsent.isTransfer]
      cases hsent with
      | done h hes hreach =>
        cases h.symm.trans hcommand
        rw [List.append_assoc]
        exact .stamped now hreach

/-- A use changes neither the generation nor the interval. -/
theorem Performed.constant {operation : TableOperation} {outcome : TableOutcome}
    (h : Performed m t operation es outcome t') :
    t'.codename = t.codename ∧ t'.interval = t.interval := by
  have hprepared : ∀ {room? es r t'}, Prepared m room? t es r t' →
      t'.codename = t.codename ∧ t'.interval = t.interval := by
    intro room? es r t' h
    cases h with
    | closed => exact ⟨rfl, rfl⟩
    | unlocated hopen h | short hopen h =>
      rw [h.frame]
      exact ⟨rfl, rfl⟩
    | renewed hopen h hroom hrenewed =>
      cases hrenewed with
      | untransferred hdue =>
        rw [hdue.frame, h.frame]
        exact ⟨rfl, rfl⟩
      | mapped hdue hmap =>
        rw [hmap.frame, hdue.frame, h.frame]
        exact ⟨rfl, rfl⟩
  cases h with
  | geometry h | transfer h | transferIfDue h =>
    rw [h.frame]
    exact ⟨rfl, rfl⟩
  | prepare h => exact hprepared h
  | read h =>
    cases h with
    | failed h | copied h => exact hprepared h
  | close h =>
    rw [h.frame]
    exact ⟨rfl, rfl⟩

/-! ## §6. All uses. -/

variable {us : List TableUse}

/-- The stamp of a table is that of its last transfer. -/
theorem transferredAt_of_history (h : History perform t us t') :
    t'.transferredAt? = (lastStamp us).or t.transferredAt? := by
  -- the stamp of a use stands unless a later one replaces it
  induction h with
  | nil => rfl
  | @cons t t' u us hu _ ih =>
    rw [ih, hu.performed.stamp, ← List.singleton_append, lastStamp_append,
      lastStamp_singleton, Option.or_assoc]

theorem constant_of_history (h : History perform t us t') :
    t'.codename = t.codename ∧ t'.interval = t.interval := by
  refine h.invariant (P := fun t' => t'.codename = t.codename ∧ t'.interval = t.interval) ?_
    ⟨rfl, rfl⟩
  intro t₁ u _ hu ht
  obtain ⟨hcodename, hinterval⟩ := hu.performed.constant
  exact ⟨hcodename.trans ht.1, hinterval.trans ht.2⟩

variable {u : TableUse} {rest : List Event} {c : Codename} {interval : Duration}

/-- What a use does at the throttle is decided there. -/
theorem decided_of_meets (hu : u.From perform t) (hmeets : u.Meets now rest) :
    Decided u.call.mailboxes t now rest u.after.transferredAt? ∧
      stamp? u.events = if rest.any Event.isTransfer then some now else none := by
  obtain ⟨hthrottled, front, hevents⟩ := hmeets
  have hgated := hu.performed.gated hthrottled
  generalize u.outcome.failure?.isNone = ok at hgated
  rw [hevents] at hgated ⊢
  generalize hes : front ++ ⟨.now, now⟩ :: rest = es at hgated
  cases hgated with
  | unmet htimeless hsame =>
    rw [← hes] at htimeless
    cases (htimeless ⟨.now, now⟩ (by simp)).1
  | met hfront hdecided hfresh =>
    obtain ⟨rfl, rfl, rfl⟩ :=
      split_reading hes.symm (fun e he => (hfront e he).1) hdecided.reading
    exact ⟨hdecided, stamp?_reading hfront _⟩

theorem isFresh_of_history (h : History perform (fresh c interval) us t) (now : Duration) :
    t.isFresh now = false ↔ FallsDue interval us now := by
  have hstamp : t.transferredAt? = lastStamp us :=
    (transferredAt_of_history h).trans Option.or_none
  rw [isFresh_eq_false_iff, hstamp, (constant_of_history h).2]
  rfl

theorem command_of_history (h : History perform (fresh c interval) us t)
    (hcommand : c.transferCommand? = some command) :
    t.codename.transferCommand? = some command := by
  rw [(constant_of_history h).1]
  exact hcommand

/-- The throttle issues the command if and only if it falls due. -/
theorem issues_of_history (h : History perform (fresh c interval) us t) (hu : u.From perform t)
    (hcommand : c.transferCommand? = some command) (hmeets : u.Meets now rest)
    (hcodename : u.call.mailboxes.codename = c) :
    Issues command rest ↔ FallsDue interval us now := by
  rw [← isFresh_of_history h]
  exact (decided_of_meets hu hmeets).1.issues_iff (command_of_history h hcommand)
    (Mailboxes.registers_of_transferCommand hcommand hcodename)

/-- What the throttle issues or transfers fell due. -/
theorem fallsDue_of_history (h : History perform (fresh c interval) us t) (hu : u.From perform t)
    (hcommand : c.transferCommand? = some command) (hmeets : u.Meets now rest)
    (hdone : Issues command rest ∨ stamp? u.events ≠ none) : FallsDue interval us now := by
  obtain ⟨hdecided, hstamp⟩ := decided_of_meets hu hmeets
  -- at a table that is fresh, the rest is mapping and copying
  rw [← isFresh_of_history h]
  obtain ⟨hfresh, hes⟩ | ⟨hstale, -⟩ := hdecided.sending (command_of_history h hcommand)
  · obtain hissues | hnoted := hdone
    · exact absurd hissues (not_issues_of_handling hes)
    · rw [hstamp, (timeless_of_handling hes).untransferred] at hnoted
      exact absurd rfl hnoted
  · exact hstale

/-- Where the throttle issues the command, it sends it once. -/
theorem sent_of_meets (hu : u.From perform t)
    (hcommand : t.codename.transferCommand? = some command) (hmeets : u.Meets now rest)
    (hissues : Issues command rest) : ∃ es fs reply, rest = es ++ fs ∧
      (u.call.mailboxes.send command.opcode (.first command.argument)).run.Reaches es reply ∧
      (∀ e ∈ fs, e.request.isAccess = false) ∧
      stamp? u.events = if reply.isOk then some now else none := by
  obtain ⟨hdecided, hstamp⟩ := decided_of_meets hu hmeets
  obtain ⟨-, hes⟩ | ⟨-, es, fs, reply, rfl, hreach, hok, hfs⟩ := hdecided.sending hcommand
  · exact absurd hissues (not_issues_of_handling hes)
  · rw [hok] at hstamp
    exact ⟨es, fs, reply, rfl, hreach, hfs, hstamp⟩

/-- Where it does not, it has no access to the firmware. -/
theorem spared_of_meets (hu : u.From perform t)
    (hcommand : t.codename.transferCommand? = some command) (hmeets : u.Meets now rest)
    (hunissued : ¬ Issues command rest) :
    (∀ e ∈ rest, e.request.isAccess = false) ∧ stamp? u.events = none := by
  obtain ⟨hdecided, hstamp⟩ := decided_of_meets hu hmeets
  obtain ⟨-, hes⟩ | ⟨-, es, fs, reply, rfl, hreach, hok, hfs⟩ := hdecided.sending hcommand
  · rw [(timeless_of_handling hes).untransferred] at hstamp
    exact ⟨isAccess_of_handling hes, hstamp⟩
  · -- what was sent through a mailbox would have been noted
    obtain ⟨-, rfl, rfl⟩ | ⟨es, rfl⟩ := reaches_send hreach
    · rw [hok] at hstamp
      exact ⟨hfs, hstamp⟩
    · exact absurd List.mem_cons_self hunissued

theorem idle_of_unmet (hu : u.From perform t) (hforced : u.call.operation ≠ .transfer)
    (hunmet : ∀ now rest, ¬ u.Meets now rest) : stamp? u.events = none := by
  by_cases hthrottled : u.call.operation.isThrottled = true
  · have hgated := hu.performed.gated hthrottled
    generalize u.outcome.failure?.isNone = ok at hgated
    generalize hes : u.events = es at hgated
    cases hgated with
    | unmet htimeless => exact htimeless.stamp
    | met => exact absurd ⟨hthrottled, _, hes⟩ (hunmet _ _)
  · exact (hu.performed.timeless (Bool.eq_false_iff.2 hthrottled) hforced).1.stamp

/-- A use that succeeds comes to the throttle, and the last transfer is recent
then. -/
theorem recent_of_performed (hu : u.From perform t)
    (hthrottled : u.call.operation.isThrottled = true) (hok : u.outcome.failure? = none) :
    ∃ now rest, u.Meets now rest ∧ u.after.isFresh now = true := by
  have hgated := hu.performed.gated hthrottled
  rw [hok] at hgated
  generalize hes : u.events = es at hgated
  cases hgated with
  | met hfront hdecided hfresh => exact ⟨_, _, ⟨hthrottled, _, hes⟩, hfresh rfl⟩

/-- After a transfer that failed, the next use that comes to the throttle tries
again. -/
theorem again_of_history {mid : List TableUse} {v : TableUse} {a b : Duration}
    {rest' : List Event} (h : History perform (fresh c interval) us t) (hu : u.From perform t)
    (h' : History perform (fresh c interval) (us ++ u :: mid) t') (hv : v.From perform t')
    (hcommand : c.transferCommand? = some command) (hmeets : u.Meets a rest)
    (hissues : Issues command rest) (hfailed : ∀ w ∈ u :: mid, stamp? w.events = none)
    (hmeets' : v.Meets b rest') (hcodename : v.call.mailboxes.codename = c) (hle : a ≤ b) :
    Issues command rest' := by
  rw [issues_of_history h' hv hcommand hmeets' hcodename]
  intro last hlast
  -- nothing was stamped since, so what was due at `a` still is at `b`
  rw [lastStamp_append, lastStamp_eq_none_iff.2 hfailed, Option.none_or] at hlast
  have hdue : interval < a.since last :=
    fallsDue_of_history h hu hcommand hmeets (.inl hissues) last hlast
  exact Nat.lt_of_lt_of_le hdue (Nat.sub_le_sub_right hle _)

/-- What the throttle transfers is stamped more than the interval after all that was
transferred before. -/
theorem apart_of_history {mid after : List TableUse} {v : TableUse} {a b : Duration}
    (h' : History perform (fresh c interval) (us ++ u :: mid) t') (hv : v.From perform t')
    (hcommand : c.transferCommand? = some command)
    (hclock : (readings (journal (us ++ u :: (mid ++ after)))).Pairwise (· ≤ ·))
    (ha : stamp? u.events = some a) (hmeets : v.Meets b rest) (hb : stamp? v.events = some b) :
    interval < b.since a := by
  have hstamped : stamp? v.events ≠ none := by
    rw [hb]
    exact Option.some_ne_none b
  -- the throttle compares with the last stamp, which is not before `a`
  obtain ⟨last, hlast, hle⟩ := le_lastStamp hclock ha
  have hdue : interval < b.since last :=
    fallsDue_of_history h' hv hcommand hmeets (.inr hstamped) last hlast
  exact Nat.lt_of_lt_of_le hdue (Nat.sub_le_sub_left hle _)

end TableReader

/-- What the throttle makes of the use `u`, with the uses before and after it. -/
structure Paced (c : Codename) (command : TransferCommand) (interval : Duration)
    (before : List TableUse) (u : TableUse) (after : List TableUse) : Prop where
  /-- The table keeps the stamp of the last transfer; one that fails leaves it. -/
  stamp : u.after.transferredAt? = lastStamp (before ++ [u])
  /-- A forced transfer is stamped after the command. -/
  forced : u.call.operation = .transfer →
    TableReader.Forced u.call.mailboxes command u.events u.outcome (stamp? u.events)
  /-- Asked for by itself, the throttle is what a use begins with. -/
  reached : u.call.operation = .transferIfDue → ∃ now rest, u.events = ⟨.now, now⟩ :: rest
  /-- The command is issued at the reading `now` if and only if no transfer succeeded
  yet or the last one is stamped more than the interval before. -/
  due : ∀ now rest, u.Meets now rest → u.call.mailboxes.codename = c →
    (Issues command rest ↔ FallsDue interval before now)
  /-- It is sent once, and stamped with the reading if it succeeds. -/
  sent : ∀ now rest, u.Meets now rest → Issues command rest → ∃ es fs reply, rest = es ++ fs ∧
    (u.call.mailboxes.send command.opcode (.first command.argument)).run.Reaches es reply ∧
    (∀ e ∈ fs, e.request.isAccess = false) ∧
    stamp? u.events = if reply.isOk then some now else none
  /-- Otherwise there is no access to the firmware. -/
  spared : ∀ now rest, u.Meets now rest → ¬ Issues command rest →
    (∀ e ∈ rest, e.request.isAccess = false) ∧ stamp? u.events = none
  /-- Nothing else transfers the table. -/
  idle : u.call.operation ≠ .transfer → (∀ now rest, ¬ u.Meets now rest) → stamp? u.events = none
  /-- After a transfer that failed, the next use that comes to the throttle tries
  again. -/
  again : ∀ a rest, u.Meets a rest → Issues command rest → stamp? u.events = none →
    ∀ mid v vs, after = mid ++ v :: vs → (∀ w ∈ mid, stamp? w.events = none) →
    v.call.mailboxes.codename = c → ∀ b rest', v.Meets b rest' → Issues command rest'
  /-- What the throttle transfers is stamped more than the interval after all that was
  transferred before. -/
  apart : ∀ v ∈ after, ∀ a b rest, stamp? u.events = some a → v.Meets b rest →
    stamp? v.events = some b → interval < b.since a
  /-- A use that succeeds, a read above all, comes to the throttle, and afterwards
  the last transfer is at most the interval old. -/
  recent : u.call.operation.isThrottled = true → u.outcome.failure? = none →
    ∃ now rest last, u.Meets now rest ∧ lastStamp (before ++ [u]) = some last ∧
      now.since last ≤ interval

open TableReader

/-- Whatever a platform refuses or answers, as long as its clock does not run
backwards the throttle makes this of every use of a table. -/
theorem refresh_throttled {σ : Type} (platform : Platform σ) (s : σ) {c : Codename}
    {command : TransferCommand} (hcommand : c.transferCommand? = some command)
    (interval : Duration) (calls : List TableCall)
    (hclock : (readings (journal (tableUses platform s c interval calls))).Pairwise (· ≤ ·)) :
    ∀ before u after, tableUses platform s c interval calls = before ++ u :: after →
      Paced c command interval before u after := by
  intro before u after hsplit
  obtain ⟨t', hall⟩ := history_tableUses platform s c interval calls
  rw [hsplit] at hall hclock
  obtain ⟨t, hbefore, hu, hafter⟩ := hall.split
  have huses := hbefore.concat hu
  have htransfer := command_of_history hbefore hcommand
  have hstamp : u.after.transferredAt? = lastStamp (before ++ [u]) :=
    (transferredAt_of_history huses).trans Option.or_none
  have hlater : ∀ mid v vs, after = mid ++ v :: vs → ∃ t₂, History TableReader.perform
      (TableReader.fresh c interval) (before ++ u :: mid) t₂ ∧ v.From TableReader.perform t₂ := by
    rintro mid v vs rfl
    rw [← List.cons_append, ← List.append_assoc] at hall
    obtain ⟨t₂, hbetween, hv, -⟩ := hall.split
    exact ⟨t₂, hbetween, hv⟩
  refine ⟨hstamp, ?_, ?_, ?_, ?_, ?_, idle_of_unmet hu, ?_, ?_, ?_⟩
  · intro hforced
    have hperformed := hu.performed
    rw [hforced] at hperformed
    exact hperformed.forced htransfer
  · intro hdue
    have hperformed := hu.performed
    rw [hdue] at hperformed
    exact hperformed.reached
  · intro now rest hmeets
    exact issues_of_history hbefore hu hcommand hmeets
  · intro now rest hmeets
    exact sent_of_meets hu htransfer hmeets
  · intro now rest hmeets
    exact spared_of_meets hu htransfer hmeets
  · rintro a rest hmeets hissues hfailed mid v vs rfl hmid hcodename b rest' hmeets'
    obtain ⟨t₂, hbetween, hv⟩ := hlater mid v vs rfl
    have hle : a ≤ b := readings_le hclock hmeets.mem_readings
      (List.mem_append_right _ List.mem_cons_self) hmeets'.mem_readings
    exact again_of_history hbefore hu hbetween hv hcommand hmeets hissues
      (List.forall_mem_cons.2 ⟨hfailed, hmid⟩) hmeets' hcodename hle
  · intro v hv a b rest ha hmeets hb
    obtain ⟨mid, vs, rfl⟩ := List.append_of_mem hv
    obtain ⟨t₂, hbetween, hv⟩ := hlater mid v vs rfl
    exact apart_of_history hbetween hv hcommand hclock ha hmeets hb
  · intro hthrottled hok
    obtain ⟨now, rest, hmeets, hfresh⟩ := recent_of_performed hu hthrottled hok
    obtain ⟨last, hlast, hle⟩ := isFresh_eq_true_iff.1 hfresh
    refine ⟨now, rest, last, hmeets, hstamp.symm.trans hlast, ?_⟩
    have hinterval : u.after.interval = interval := (constant_of_history huses).2
    rwa [hinterval] at hle

namespace Ticking

/-- A machine on which all goes well, and whose clock is half a microsecond later
each time it is read. -/
def platform : Platform Nat
  | .identify .., clock => ({}, clock)
  | .readBridge _, clock => (.ok 1, clock)
  | .writeBridge .., clock => (.ok (), clock)
  | .map .., clock => (.ok ⟨0, 0⟩, clock)
  | .unmap .., clock => ((), clock)
  | .load _ count, clock => (.replicate count 0, clock)
  | .now, clock => (⟨clock⟩, clock + 500)
  | .note _, clock => ((), clock)

/-- Asked for a transfer four times, at most once in a microsecond, and once more to
make it. -/
def row : List TableUse :=
  tableUses platform 0 .picasso ⟨1000⟩
    ([.transferIfDue, .prepare, .transferIfDue, .transferIfDue, .transfer].map
      (⟨⟨.picasso, 2, .standard⟩, ·⟩))

/-- What is exactly the interval old is recent enough. -/
theorem refresh_throttled_row :
    readings (journal row) = [⟨0⟩, ⟨500⟩, ⟨1000⟩, ⟨1500⟩, ⟨2000⟩] ∧
      row.map (fun u => stamp? u.events) = [some ⟨0⟩, none, none, some ⟨1500⟩, some ⟨2000⟩] ∧
      ∀ before u after, row = before ++ u :: after →
        Paced .picasso ⟨0x3D, 3⟩ ⟨1000⟩ before u after := by
  have hreadings : readings (journal row) = [⟨0⟩, ⟨500⟩, ⟨1000⟩, ⟨1500⟩, ⟨2000⟩] := by
    decide +kernel
  refine ⟨hreadings, by decide +kernel, ?_⟩
  refine refresh_throttled platform 0 rfl ⟨1000⟩ _ ?_
  change (readings (journal row)).Pairwise (· ≤ ·)
  rw [hreadings]
  decide

end Ticking
end ManagementUnit
