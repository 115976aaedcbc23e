/-
  ManagementUnit.Proofs.Table.Retry
  ────────────────────────────────
  What a read leaves behind that fails, and what the next one makes of it.

  A read goes through four steps before it copies: the geometry, the room for it, a
  transfer if one is due, and the mapping.  It leaves off at the first one that fails.
  Those before it may have left something on the table, the geometry that was found and
  the stamp of the transfer; a mapping comes last and is all or nothing.  So there is
  one table for each place where a read can fail, `Halts` lists them, and the read
  that comes next begins where this one left off.

  Main results:
    * `Prepared.halts`      — a read fails in one of five places, and leaves this behind.
    * `Halts.balanced`      — wherever it fails, nothing is out that was not out before.
    * `Prepared.remaps`     — a read that gets as far maps a table that is not mapped.
    * `failed_read_retried` — a read that fails and the one that follows it, from any
      state of the table.
-/
import ManagementUnit.Proofs.Table.Mappings
import ManagementUnit.Proofs.Table.Permanence
import ManagementUnit.Proofs.Table.Throttle

namespace ManagementUnit

theorem TableMapping.Established.unmapped {g : Geometry} {es : List Event} {f : Failure}
    (h : Established g es (.error f)) : ∃ e, f = .unmapped e := by
  cases h with
  | refused e | undone _ e => exact ⟨e, rfl⟩

namespace TableReader

variable {m : Mailboxes} {t t' : TableReader} {room : Nat} {es : List Event} {f : Failure}

/-! ## §1. Where a read fails. -/

theorem LookedUp.after_eq {g : Geometry} (h : LookedUp m t es (.ok g) t') :
    t' = { t with located? := some g } := by
  rw [h.frame, h.located]

/-- `Halts m t room f es t'`: a read into a buffer of `room` bytes that begins on `t` fails
with `f` after the events `es`, and leaves the table as `t'`. -/
inductive Halts (m : Mailboxes) (t : TableReader) (room : Nat) :
    Failure → List Event → TableReader → Prop where
  /-- The table was closed: nothing is asked. -/
  | closed (h : t.closed = true) : Halts m t room .unsupported [⟨.note .tableClosed, ()⟩] t
  /-- The geometry is not found: it was asked for, and nothing else. -/
  | unlocated {es : List Event} {f : Failure} (hopen : t.closed = false)
      (hnone : t.located? = none) (hasked : m.tableGeometry.run.Reaches es (.error f))
      (htimeless : Timeless es) (hunmapping : ∀ e ∈ es, e.request.isMapping = false) :
      Halts m t room f es t
  /-- There is no room: the geometry is known or found, and that is all. -/
  | short {es : List Event} {g : Geometry} (hopen : t.closed = false)
      (hlocated : LookedUp m t es (.ok g) { t with located? := some g })
      (hshort : room < g.totalLength) (htimeless : Timeless es)
      (hunmapping : ∀ e ∈ es, e.request.isMapping = false) :
      Halts m t room (.shortBuffer g.totalLength)
        (es ++ [⟨.note (.bufferTooShort room g.totalLength), ()⟩]) { t with located? := some g }
  /-- A transfer was due and failed: the stamp stays, and nothing is mapped. -/
  | untransferred {es fs : List Event} {g : Geometry} {now : Duration} {f : Failure}
      (hopen : t.closed = false)
      (hlocated : LookedUp m t es (.ok g) { t with located? := some g })
      (hroom : g.totalLength ≤ room) (hdue : t.isFresh now = false)
      (hsent : Sent m t.codename fs (.error f))
      (hunmapping : ∀ e ∈ es ++ ⟨.now, now⟩ :: fs, e.request.isMapping = false) :
      Halts m t room f (es ++ ⟨.now, now⟩ :: fs) { t with located? := some g }
  /-- A region was refused: the transfer is over if one was due, and the other region, if
  it was mapped, is given back. -/
  | unmapped {es fs gs : List Event} {g : Geometry} {sent : Bool} {e : MapError}
      {t₁ : TableReader} (hopen : t.closed = false)
      (hlocated : LookedUp m t es (.ok g) { t with located? := some g })
      (hroom : g.totalLength ≤ room)
      (htransferred : Throttled m { t with located? := some g } fs (.ok sent) t₁)
      (hnone : t.mapping? = none) (hstill : t₁.mapping? = none)
      (hrefused : TableMapping.Established g gs (.error (.unmapped e))) :
      Halts m t room (.unmapped e) (es ++ (fs ++ gs)) t₁

/-- A read fails in one of these places. -/
theorem Prepared.halts (h : Prepared m (some room) t es (.error f) t') :
    Halts m t room f es t' := by
  generalize hr : Except.error f = r at h
  cases h with
  | closed hclosed =>
    cases hr
    exact .closed hclosed
  | unlocated hopen h =>
    cases hr
    have hunmapping := h.unmapping
    have htimeless := h.timeless
    cases h with
    | failed hnone hes hf hreach => exact .unlocated hopen hnone hreach htimeless hunmapping
  | short hopen h hroom hshort =>
    cases hr
    cases hroom
    obtain rfl := h.after_eq
    exact .short hopen h hshort h.timeless h.unmapping
  | @renewed es fs g t₁ t' r hopen h hroom hrenewed =>
    cases r with
    | ok mapping => cases hr
    | error f =>
      cases hr
      obtain rfl := h.after_eq
      have hfits := hroom room rfl
      generalize hr : Except.error f = r at hrenewed
      cases hrenewed with
      | untransferred hdue =>
        cases hr
        have hunmapping := List.forall_mem_append.2 ⟨h.unmapping, hdue.unmapping⟩
        cases hdue with
        | failed hstale hsent => exact .untransferred hopen h hfits hstale hsent hunmapping
      | @mapped fs gs sent r t₁ t' hdue hmap =>
        subst hr
        cases hmap with
        | failed hnone hes =>
          obtain ⟨e, rfl⟩ := hes.unmapped
          have hnone' : t.mapping? = none := by
            rw [hdue.frame] at hnone
            exact hnone
          exact .unmapped hopen h hfits hdue hnone' hnone hes

/-- Wherever a read fails, nothing is out that was not out before. -/
theorem Halts.balanced (h : Halts m t room f es t') (out : Multiset Loan) :
    outstanding out es = some out := by
  cases h with
  | closed => rfl
  | unlocated _ _ _ _ hunmapping => exact outstanding_of_unmapping hunmapping
  | untransferred _ _ _ _ _ hunmapping => exact outstanding_of_unmapping hunmapping
  | short _ _ _ _ hunmapping =>
    refine outstanding_of_unmapping (List.forall_mem_append.2 ⟨hunmapping, ?_⟩)
    exact List.forall_mem_singleton.2 rfl
  | unmapped _ hlocated _ htransferred _ _ hrefused =>
    refine outstanding_append_iff.2 ⟨out, outstanding_of_unmapping hlocated.unmapping, ?_⟩
    refine outstanding_append_iff.2 ⟨out, outstanding_of_unmapping htransferred.unmapping, ?_⟩
    exact hrefused.restores

theorem Halts.mapping_eq (h : Halts m t room f es t') : t'.mapping? = t.mapping? := by
  cases h with
  | closed | unlocated | short | untransferred => rfl
  | unmapped _ _ _ _ hnone hstill => rw [hnone, hstill]

/-! ## §2. The next read. -/

/-- A read that gets as far maps a table that is not mapped. -/
theorem Prepared.remaps {room? : Option Nat} {r : Except Failure (Geometry × TableMapping)}
    (h : Prepared m room? t es r t') (hnone : t.mapping? = none)
    (hr : ∀ f, r = .error f → ∃ e, f = .unmapped e) :
    ∃ g fs gs r', es = fs ++ gs ∧ TableMapping.Established g gs r' ∧ t'.located? = some g := by
  cases h with
  | closed =>
    obtain ⟨e, he⟩ := hr _ rfl
    cases he
  | unlocated _ h =>
    obtain ⟨e, rfl⟩ := hr _ rfl
    cases h.isInquiry
  | short =>
    obtain ⟨e, he⟩ := hr _ rfl
    cases he
  | @renewed es fs g t₁ t' r _ h _ hrenewed =>
    have hlocated : t'.located? = some g := hrenewed.unlocated.2.trans h.located
    cases hrenewed with
    | untransferred hdue =>
      obtain ⟨e, rfl⟩ := hr _ rfl
      cases hdue.isInquiry
    | @mapped fs gs sent r t₂ t' hdue hmap =>
      have hnone₂ : t₂.mapping? = none := by
        rw [hdue.frame, h.frame]
        exact hnone
      cases hmap with
      | kept hmapping => cases hnone₂.symm.trans hmapping
      | established _ hes | failed _ hes =>
        exact ⟨g, es ++ fs, gs, _, (List.append_assoc _ _ _).symm, hes, hlocated⟩

variable {buffer filled : Bytes} {r : Except Failure Nat}

theorem Copied.remaps (h : Copied m buffer t es (r, filled) t') (hnone : t.mapping? = none)
    (hr : ∀ f, r = .error f → ∃ e, f = .unmapped e) :
    ∃ g fs gs hs r', es = fs ++ (gs ++ hs) ∧ TableMapping.Established g gs r' ∧
      t'.located? = some g := by
  cases h with
  | failed h =>
    obtain ⟨g, fs, gs, r', rfl, hes, hg⟩ := h.remaps hnone fun e he => by
      cases he
      exact hr _ rfl
    exact ⟨g, fs, gs, [], r', by rw [List.append_nil], hes, hg⟩
  | copied h =>
    obtain ⟨g, fs, gs, r', rfl, hes, hg⟩ := h.remaps hnone nofun
    exact ⟨g, fs, gs, _, r', List.append_assoc _ _ _, hes, hg⟩

/-- A read of a table that is mapped maps nothing. -/
theorem Copied.unmapping (h : Copied m buffer t es (r, filled) t') (hmapped : t.mapping? ≠ none) :
    ∀ e ∈ es, e.request.isMapping = false := by
  cases h with
  | failed h => exact (h.settled (.inl hmapped)).1
  | copied h hfs =>
    exact List.forall_mem_append.2 ⟨(h.settled (.inl hmapped)).1, unmapping_of_copyInto hfs⟩

/-- A read of a table that was closed asks nothing. -/
theorem Copied.refused (h : Copied m buffer t es (r, filled) t') (hclosed : t.closed = true) :
    es = [⟨.note .tableClosed, ()⟩] := by
  cases h with
  | failed h => exact (h.refused hclosed).1
  | copied h => cases (h.refused hclosed).2.1

/-! ## §3. Two reads in a row. -/

/-- What becomes of a read of `buffer` that begins on `t` and fails with `f`. -/
structure Halted (t : TableReader) (u : TableUse) (buffer filled : Bytes) (f : Failure) :
    Prop where
  halts : Halts u.call.mailboxes t buffer.length f u.events u.after
  buffer : filled = buffer
  /-- What was known of the geometry, or mapped, still is. -/
  located : ∀ g, t.located? = some g → u.after.located? = some g
  mapping : u.after.mapping? = t.mapping?
  /-- The stamp changes if a transfer succeeded, and then to the time of it. -/
  stamp : u.after.transferredAt? = (stamp? u.events).or t.transferredAt?
  /-- What is out is what was out before. -/
  balanced : ∀ out, outstanding out u.events = some out
  constant : u.after.codename = t.codename ∧ u.after.interval = t.interval ∧
    u.after.closed = t.closed

/-- What the read `v` does where the read `u`, which began on `t`, left off. -/
structure Resumed (t : TableReader) (u v : TableUse) : Prop where
  /-- A table that was closed is refused again. -/
  refused : t.closed = true → v.events = [⟨.note .tableClosed, ()⟩]
  /-- A geometry that is known is not asked for. -/
  unasked : ∀ g, u.after.located? = some g → Unasked v.events
  /-- One that is not known is asked for, all of it. -/
  asks : u.after.located? = none → t.closed = false → v.Asks
  /-- While the last transfer is recent, nothing comes after the throttle but mapping
  and copying. -/
  spared : ∀ now rest, v.Meets now rest → u.after.isFresh now = true →
    ∀ e ∈ rest, e.request.isHandling = true
  /-- When it is not, the command is issued. -/
  issued : ∀ command now rest, t.codename.transferCommand? = some command →
    v.call.mailboxes.codename = t.codename → v.Meets now rest →
      u.after.isFresh now = false → Issues command rest
  /-- What the first read transferred is recent for the length of the interval. -/
  recent : ∀ a, stamp? u.events = some a →
    ∀ now, u.after.isFresh now = true ↔ now.since a ≤ t.interval
  /-- What was due and not transferred by the first read is due later. -/
  due : stamp? u.events = none → ∀ a b, t.isFresh a = false → a ≤ b →
    u.after.isFresh b = false
  /-- A table that is mapped is not mapped again. -/
  kept : t.mapping? ≠ none → ∀ e ∈ v.events, e.request.isMapping = false
  /-- One that is not mapped is mapped, if the read gets as far. -/
  remaps : t.mapping? = none → (∀ f, v.outcome.failure? = some f → ∃ e, f = .unmapped e) →
    ∃ g es fs gs r, v.events = es ++ (fs ++ gs) ∧ TableMapping.Established g fs r ∧
      v.after.located? = some g

variable {u v : TableUse} {buffer' : Bytes}

theorem halted_of_failed (hu : u.From perform t) (hread : u.call.operation = .read buffer)
    (hfailed : u.outcome = .read (.error f) filled) : Halted t u buffer filled f := by
  have hperformed := hu.performed
  obtain ⟨r, filled', houtcome, hcopied⟩ := hu.copied hread
  cases hfailed.symm.trans houtcome
  obtain ⟨hhalts, hbuffer⟩ : Halts u.call.mailboxes t buffer.length f u.events u.after ∧
      filled = buffer := by
    generalize u.events = es, u.after = t' at hcopied ⊢
    cases hcopied with
    | failed h => exact ⟨h.halts, rfl⟩
  refine ⟨hhalts, hbuffer, ?_, hhalts.mapping_eq, hperformed.stamp, hhalts.balanced, ?_⟩
  · intro g hg
    rw [hperformed.located_eq, hg]
    rfl
  · have hclosed : u.after.closed = (t.closed || u.call.operation.isClose) := hperformed.closed_eq
    rw [hread] at hclosed
    exact ⟨hperformed.constant.1, hperformed.constant.2, hclosed.trans (Bool.or_false _)⟩

theorem resumed_of_halted (hu : Halted t u buffer filled f) (hv : v.From perform u.after)
    (hread : v.call.operation = .read buffer') : Resumed t u v := by
  have hlocates : v.call.operation.locates = true := by rw [hread]; rfl
  obtain ⟨r, filled', houtcome, hcopied⟩ := hv.copied hread
  obtain ⟨hcodename, hinterval, hclosed⟩ := hu.constant
  refine ⟨?_, fun g hg => hv.performed.unasked hg hlocates, ?_, ?_, ?_, ?_, ?_, ?_, ?_⟩
  · intro ht
    exact hcopied.refused (hclosed.trans ht)
  · intro hnone hopen
    exact asks_of_performed hv hnone hlocates (.inr (hclosed.trans hopen))
  · intro now rest hmeets hfresh
    exact (decided_of_meets hv hmeets).1.spared hfresh
  · intro command now rest hcommand hm hmeets hstale
    have hregisters := Mailboxes.registers_of_transferCommand hcommand hm
    rw [← hcodename] at hcommand
    exact ((decided_of_meets hv hmeets).1.issues_iff hcommand hregisters).2 hstale
  · intro a ha now
    rw [isFresh_eq_true_iff, hu.stamp, ha, hinterval]
    simp
  · intro hnone a b hdue hle
    rw [isFresh_eq_false_iff, hu.stamp, hnone, hinterval]
    intro last hlast
    exact Nat.lt_of_lt_of_le (isFresh_eq_false_iff.1 hdue last hlast) (Nat.sub_le_sub_right hle _)
  · intro hmapped
    exact hcopied.unmapping (by rwa [hu.mapping])
  · intro hnone hfailed
    rw [houtcome] at hfailed
    refine hcopied.remaps (hu.mapping.trans hnone) fun f hf => hfailed f ?_
    exact TableOutcome.failure?_read.2 hf

end TableReader

open TableReader

/-- On any platform and from any state of the table: a read that fails leaves the buffer
alone and on the table what was completed, and the read after it goes on from there. -/
theorem failed_read_retried {σ : Type} (platform : Platform σ) (s : σ) (t : TableReader)
    (m m' : Mailboxes) (buffer buffer' : Bytes) :
    ∃ u v, uses perform platform [⟨m, .read buffer⟩, ⟨m', .read buffer'⟩] t s = [u, v] ∧
      ∀ f filled, u.outcome = .read (.error f) filled →
        Halted t u buffer filled f ∧ Resumed t u v := by
  have hall : ∃ t', History perform t
      (uses perform platform [⟨m, .read buffer⟩, ⟨m', .read buffer'⟩] t s) t' :=
    history_uses platform _ t s
  have hcalls : (uses perform platform [⟨m, .read buffer⟩, ⟨m', .read buffer'⟩] t s).map Use.call =
      [⟨m, .read buffer⟩, ⟨m', .read buffer'⟩] := map_call_uses platform _ t s
  generalize uses perform platform [⟨m, .read buffer⟩, ⟨m', .read buffer'⟩] t s = us at *
  obtain ⟨t', hall⟩ := hall
  obtain ⟨u, v, rfl⟩ : ∃ u v, us = [u, v] := by
    refine List.length_eq_two.1 ?_
    rw [← List.length_map, hcalls]
    rfl
  obtain ⟨hu, hv⟩ : u.From perform t ∧ v.From perform u.after := by
    cases hall with
    | cons hu hrest =>
      cases hrest with
      | cons hv _ => exact ⟨hu, hv⟩
  simp only [List.map_cons, List.map_nil, List.cons.injEq, and_true] at hcalls
  have hread := congrArg TableCall.operation hcalls.1
  have hread' := congrArg TableCall.operation hcalls.2
  refine ⟨u, v, rfl, ?_⟩
  intro f filled hfailed
  have hhalted := halted_of_failed hu hread hfailed
  exact ⟨hhalted, resumed_of_halted hhalted hv hread'⟩

namespace Unread

open Simulation (World)

/-- A buffer as long as the table. -/
def room : Bytes := List.replicate 0x514 0

/-- Two reads on a machine without memory where the table lies. -/
def reads : List TableUse :=
  uses perform (World.platform firmware) [⟨mailboxes, .read room⟩, ⟨mailboxes, .read room⟩]
    (fresh .matisse (.ofSeconds 1)) sound

/-- The first one finds the geometry and transfers the table before the mapping is
refused; the second one neither asks for the geometry nor transfers again. -/
theorem failed_read_retried_unmapped :
    ∃ (u v : TableUse) (e : MapError), reads = [u, v] ∧
      u.outcome = .read (.error (.unmapped e)) room ∧
      u.after.mapping? = none ∧ outstanding 0 u.events = some 0 ∧ Unasked v.events ∧
      ∀ now rest, v.Meets now rest → now.since ⟨0⟩ ≤ .ofSeconds 1 →
        ∀ e ∈ rest, e.request.isHandling = true := by
  have hfacts : reads.map (fun u => (u.outcome.read?, u.after.located?.isSome, stamp? u.events)) =
      [(some (.error (.unmapped ⟨.ofHalves 0xDF100000 0, 0x514⟩)), true, some ⟨0⟩),
        (some (.error (.unmapped ⟨.ofHalves 0xDF100000 0, 0x514⟩)), true, none)] := by
    decide +kernel
  obtain ⟨u, v, huses, hretried⟩ := failed_read_retried (World.platform firmware) sound
    (fresh .matisse (.ofSeconds 1)) mailboxes mailboxes room room
  change reads = [u, v] at huses
  rw [huses] at hfacts
  simp only [List.map_cons, List.map_nil, List.cons.injEq, Prod.mk.injEq] at hfacts
  obtain ⟨⟨hread, hlocated, hstamp⟩, -⟩ := hfacts
  obtain ⟨g, hg⟩ := Option.isSome_iff_exists.1 hlocated
  obtain ⟨filled, houtcome⟩ := TableOutcome.read?_eq_some_iff.1 hread
  obtain ⟨hhalted, hresumed⟩ := hretried _ filled houtcome
  rw [hhalted.buffer] at houtcome
  refine ⟨u, v, _, huses, houtcome, hhalted.mapping, hhalted.balanced 0, hresumed.unasked g hg, ?_⟩
  intro now rest hmeets hrecent
  exact hresumed.spared now rest hmeets ((hresumed.recent _ hstamp now).2 hrecent)

end Unread
end ManagementUnit
