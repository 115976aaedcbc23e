/-
  ManagementUnit.Proofs.Table.Closure
  ────────────────────────────────
  What is left of a table that was closed.

  Closing takes the mappings away for good: what needs them is refused before it
  asks for anything.  What does not need them, the geometry and the transfers, goes
  on as if nothing had happened.  For that the programs themselves are compared: a
  step that never looks at the mapping is the same program on the table and on the
  table closed (`Indifferent`), so it asks the same of every platform, ends in the
  same way and leaves the same behind.

  Main results:
    * `indifferent_perform`  — geometry and transfers do not see whether the table is
      closed.
    * `Use.From.refused`     — a closed table refuses everything else and stays as it
      is.
    * `closed_for_good`      — both, for every use that comes after the end.
-/
import ManagementUnit.Proofs.Table.Mappings

namespace ManagementUnit

open Program (reaches_bind_iff reaches_done_iff)

/-! ## §1. Operations that need no mapping. -/

/-- Whether an operation has nothing to do with the mappings of a table. -/
def TableOperation.isMapless : TableOperation → Bool
  | geometry | transfer | transferIfDue => true
  | prepare | read _ | close => false

/-- A table as it is after it was closed. -/
def TableReader.shut (t : TableReader) : TableReader := { t with closed := true, mapping? := none }

/-- A step that does the same whether the table is closed or not. -/
def Indifferent {α : Type} (x : StateT TableReader Program α) : Prop :=
  ∀ t, x.run t.shut = Prod.map id TableReader.shut <$> x.run t

section Indifferent

variable {α β : Type}

theorem indifferent_pure (a : α) : Indifferent (pure a) := fun _ => rfl

theorem Indifferent.bind {x : StateT TableReader Program α} {f : α → StateT TableReader Program β}
    (hx : Indifferent x) (hf : ∀ a, Indifferent (f a)) : Indifferent (x >>= f) := by
  intro t
  rw [StateT.run_bind, StateT.run_bind, hx t, bind_map_left, map_bind]
  exact congrArg (x.run t >>= ·) (funext fun r => hf r.1 r.2)

/-- What a platform is asked has nothing to do with the table. -/
theorem indifferent_lift (p : Program α) :
    Indifferent (liftM p : StateT TableReader Program α) := by
  intro t
  have hrun : ∀ t : TableReader, (liftM p : StateT TableReader Program α).run t
      = p >>= fun a => pure (a, t) := fun _ => rfl
  rw [hrun, hrun, map_bind]
  rfl

theorem Indifferent.packed {x : StateT TableReader Program α} (hx : Indifferent x) (f : α → β) :
    Indifferent (x >>= fun a => pure (f a)) :=
  hx.bind fun a => indifferent_pure (f a)

end Indifferent

namespace TableStep

variable {α β : Type}

/-- A step that may fail goes on where it does not. -/
theorem indifferent_bind {x : TableStep α} {f : α → TableStep β} (hx : Indifferent x.run)
    (hf : ∀ a, Indifferent (f a).run) : Indifferent (x >>= f).run := by
  refine hx.bind ?_
  intro outcome
  cases outcome with
  | ok a => exact hf a
  | error e => exact indifferent_pure _

theorem indifferent_ofAttempt (x : Attempt α) : Indifferent (ofAttempt x).run :=
  indifferent_lift x.run

theorem indifferent_ask (p : Program α) : Indifferent (liftM p : TableStep α).run :=
  (indifferent_lift p).packed Except.ok

/-- A step may look at the table as long as it does not look at the mapping. -/
theorem indifferent_get {f : TableReader → TableStep α} (hsame : ∀ t, f t.shut = f t)
    (hf : ∀ t, Indifferent (f t).run) : Indifferent (get >>= f : TableStep α).run := by
  intro t
  show (f t.shut).run.run t.shut = _ <$> (f t).run.run t
  rw [hsame t]
  exact hf t t

/-- It may also change the table as long as it leaves the mapping alone. -/
theorem indifferent_modify {g : TableReader → TableReader} (h : ∀ t, g t.shut = (g t).shut) :
    Indifferent (modify g : TableStep Unit).run := by
  intro t
  show Program.done (Except.ok (), g t.shut) = Program.done (Except.ok (), (g t).shut)
  rw [h t]

end TableStep

namespace TableReader

open TableStep

/-! ## §2. Geometry and transfers. -/

variable {m : Mailboxes}

theorem indifferent_geometry (m : Mailboxes) : Indifferent (geometry m).run := by
  refine indifferent_get (fun _ => rfl) ?_
  intro t
  cases t.located? with
  | some g => exact indifferent_pure _
  | none =>
    refine indifferent_bind (indifferent_ofAttempt m.tableGeometry) ?_
    intro g
    exact indifferent_bind (indifferent_modify fun _ => rfl) fun _ => indifferent_pure _

theorem indifferent_sendTransfer (m : Mailboxes) : Indifferent (sendTransfer m).run := by
  unfold sendTransfer
  refine indifferent_get (fun _ => rfl) ?_
  intro t
  refine indifferent_bind (indifferent_ofAttempt _) ?_
  intro command
  refine indifferent_bind (indifferent_ofAttempt _) ?_
  intro words
  exact indifferent_ask _

theorem indifferent_transfer (m : Mailboxes) : Indifferent (transfer m).run := by
  refine indifferent_bind (indifferent_sendTransfer m) ?_
  intro _
  refine indifferent_bind (indifferent_ask _) ?_
  intro now
  exact indifferent_modify fun _ => rfl

theorem indifferent_transferIfDue (m : Mailboxes) : Indifferent (transferIfDue m).run := by
  refine indifferent_bind (indifferent_ask _) ?_
  intro now
  refine indifferent_get (fun _ => rfl) ?_
  intro t
  cases t.isFresh now with
  | true => exact indifferent_pure _
  | false =>
    refine indifferent_bind (indifferent_sendTransfer m) ?_
    intro _
    exact indifferent_bind (indifferent_modify fun _ => rfl) fun _ => indifferent_pure _

/-- Geometry and transfers do not see whether the table is closed. -/
theorem indifferent_perform {call : TableCall} (h : call.operation.isMapless = true) :
    Indifferent (perform call) := by
  rcases call with ⟨m, operation⟩
  cases operation with
  | geometry => exact (indifferent_geometry m).packed _
  | transfer => exact (indifferent_transfer m).packed _
  | transferIfDue => exact (indifferent_transferIfDue m).packed _
  | prepare | read | close => cases h

theorem shut_shut (t : TableReader) : t.shut.shut = t.shut := rfl

/-! ## §3. What is refused. -/

/-- What becomes of a use of the closed table `t` that needs the mappings, or gives
them back once more. -/
structure TurnedAway (t : TableReader) (u : TableUse) : Prop where
  prepare : u.call.operation = .prepare → u.outcome = .prepare (.error .unsupported) ∧
    u.events = [⟨.note .tableClosed, ()⟩] ∧ u.after = t
  read : ∀ buffer, u.call.operation = .read buffer →
    u.outcome = .read (.error .unsupported) buffer ∧
      u.events = [⟨.note .tableClosed, ()⟩] ∧ u.after = t
  close : u.call.operation = .close → u.outcome = .closed ∧ u.events = [] ∧ u.after = t

theorem Closed.refused {t t' : TableReader} {es : List Event} (h : Closed t.shut es t') :
    es = [] ∧ t' = t.shut := by
  cases h with
  | bare => exact ⟨rfl, rfl⟩
  | released hmapping => cases hmapping

end TableReader

open TableReader

/-- A closed table refuses what it cannot do any more, and stays as it is. -/
theorem Use.From.refused {t : TableReader} {u : TableUse} (h : u.From perform t.shut) :
    TurnedAway t.shut u := by
  have hperformed := h.performed
  rcases u with ⟨⟨m, operation⟩, events, outcome, after⟩
  cases hperformed with
  | geometry | transfer | transferIfDue => exact ⟨nofun, nofun, nofun⟩
  | prepare hprepared =>
    obtain ⟨rfl, rfl, rfl⟩ := hprepared.refused rfl
    exact ⟨fun _ => ⟨rfl, rfl, rfl⟩, nofun, nofun⟩
  | @read buffer filled es r t' hcopied =>
    cases hcopied with
    | failed hprepared =>
      obtain ⟨rfl, herror, rfl⟩ := hprepared.refused rfl
      cases herror
      refine ⟨nofun, ?_, nofun⟩
      intro buffer' hread
      cases hread
      exact ⟨rfl, rfl, rfl⟩
    | copied hprepared =>
      obtain ⟨-, herror, -⟩ := hprepared.refused rfl
      cases herror
  | close hclosed =>
    obtain ⟨rfl, rfl⟩ := hclosed.refused
    exact ⟨nofun, nofun, fun _ => ⟨rfl, rfl, rfl⟩⟩

/-- What a closed table does still do is what the table would have done. -/
theorem Use.From.twin {t : TableReader} {u : TableUse} (h : u.From perform t.shut)
    (hmapless : u.call.operation.isMapless = true) :
    ∃ t', u.after = t'.shut ∧ Use.From perform t { u with after := t' } := by
  have hreaches : (Prod.map id shut <$> (perform u.call).run t).Reaches u.events
      (u.outcome, u.after) := indifferent_perform hmapless t ▸ h
  rw [map_eq_pure_bind] at hreaches
  obtain ⟨es, fs, ⟨outcome, t'⟩, hes, hperform, hdone⟩ := reaches_bind_iff.1 hreaches
  obtain ⟨rfl, heq⟩ := reaches_done_iff.1 hdone
  obtain ⟨houtcome, hafter⟩ := Prod.mk.inj heq
  rw [List.append_nil] at hes
  refine ⟨t', hafter, ?_⟩
  show ((perform u.call).run t).Reaches u.events (u.outcome, t')
  rw [hes, houtcome]
  exact hperform

/-- The other uses leave no trace on a closed table. -/
theorem TableReader.TurnedAway.after_eq {t : TableReader} {u : TableUse} (h : TurnedAway t u)
    (hmapped : u.call.operation.isMapless = false) : u.after = t := by
  cases hoperation : u.call.operation with
  | geometry | transfer | transferIfDue =>
    rw [hoperation] at hmapped
    cases hmapped
  | prepare => exact (h.prepare hoperation).2.2
  | read buffer => exact (h.read buffer hoperation).2.2
  | close => exact (h.close hoperation).2.2

/-- No use of a closed table maps anything or gives anything back. -/
theorem Use.From.unmapping {t : TableReader} {u : TableUse} (h : u.From perform t.shut) :
    ∀ e ∈ u.events, e.request.isMapping = false := by
  have hrefused := h.refused
  have hperformed := h.performed
  rcases u with ⟨⟨m, operation⟩, events, outcome, after⟩
  cases hperformed with
  | geometry hcourse => exact hcourse.unmapping
  | transfer hcourse => exact hcourse.unmapping
  | transferIfDue hcourse => exact hcourse.unmapping
  | prepare =>
    obtain ⟨-, rfl, -⟩ := hrefused.prepare rfl
    exact List.forall_mem_singleton.2 rfl
  | @read buffer =>
    obtain ⟨-, rfl, -⟩ := hrefused.read buffer rfl
    exact List.forall_mem_singleton.2 rfl
  | close =>
    obtain ⟨-, rfl, -⟩ := hrefused.close rfl
    exact List.forall_mem_nil _

/-! ## §4. All that comes after the end. -/

/-- A use of a table, as it is of the table closed. -/
def Use.shut (u : TableUse) : TableUse := { u with after := u.after.shut }

/-- Whether a use has nothing to do with the mappings. -/
def Use.isMapless (u : TableUse) : Bool := u.call.operation.isMapless

namespace TableReader

variable {t t' : TableReader} {us : List TableUse}

/-- Of a closed table the uses that need no mapping are, in a row, the uses of the
table that they would have been, had it not been closed. -/
theorem twin_of_history (h : History perform t.shut us t') :
    ∃ vs t₁, History perform t vs t₁ ∧ t' = t₁.shut ∧
      us.filter Use.isMapless = vs.map Use.shut := by
  -- by induction on the uses, each of which goes on from a closed table
  generalize hshut : t.shut = u at h
  induction h generalizing t with
  | nil => exact ⟨[], t, .nil t, hshut.symm, rfl⟩
  | @cons _ t' u us hu _ ih =>
    subst hshut
    cases hmapless : u.isMapless with
    | true =>
      obtain ⟨t₁, hafter, htwin⟩ := hu.twin hmapless
      obtain ⟨vs, t₂, hvs, ht', hfilter⟩ := ih hafter.symm
      refine ⟨{ u with after := t₁ } :: vs, t₂, .cons htwin hvs, ht', ?_⟩
      rw [List.filter_cons_of_pos hmapless, hfilter, List.map_cons, Use.shut, ← hafter]
    | false =>
      obtain ⟨vs, t₂, hvs, ht', hfilter⟩ := ih (hu.refused.after_eq hmapless).symm
      refine ⟨vs, t₂, hvs, ht', ?_⟩
      rwa [List.filter_cons_of_neg (Bool.eq_false_iff.1 hmapless)]

/-- A closed table stays closed, whatever it is used for. -/
theorem shut_of_history (h : History perform t.shut us t') : t'.shut = t' := by
  obtain ⟨-, t₁, -, rfl, -⟩ := twin_of_history h
  exact shut_shut t₁

/-- And nothing is mapped or given back. -/
theorem unmapping_of_history (h : History perform t.shut us t') :
    ∀ e ∈ journal us, e.request.isMapping = false := by
  have hstep : ∀ t, ∀ u ∈ us, u.From perform t → t.shut = t →
      u.after.shut = u.after ∧ ∀ e ∈ u.events, e.request.isMapping = false := by
    intro t u _ hu ht
    rw [← ht] at hu
    exact ⟨shut_of_history (.cons hu (.nil _)), hu.unmapping⟩
  obtain ⟨-, hall⟩ := h.forall_uses hstep (shut_shut t)
  intro e he
  obtain ⟨u, hu, he⟩ := List.mem_flatMap.1 he
  exact hall u hu e he

/-- A use that closes a table leaves it closed. -/
theorem shut_of_close {u : TableUse} (h : u.From perform t) (hclose : u.call.operation = .close) :
    u.after = t.shut := by
  have hperformed := h.performed
  rw [hclose] at hperformed
  rcases u with ⟨call, events, outcome, after⟩
  cases hperformed with
  | close hclosed => exact hclosed.frame

/-- So it is after each use that comes behind. -/
theorem shut_of_split {closing u v : TableUse} {later before after : List TableUse}
    (hclosing : closing.after = t.shut) (h : History perform t.shut later t')
    (hsplit : closing :: later = before ++ u :: v :: after) :
    u.after.shut = u.after ∧ v.From perform u.after := by
  cases before with
  | nil =>
    obtain ⟨rfl, rfl⟩ := List.cons_eq_cons.1 hsplit
    cases h with
    | cons hv _ =>
      rw [hclosing]
      exact ⟨shut_shut t, hv⟩
  | cons _ before =>
    obtain ⟨-, rfl⟩ := List.cons_eq_cons.1 hsplit
    obtain ⟨t₁, hbefore, hu, hafter⟩ := h.split
    cases hafter with
    | cons hv _ => exact ⟨shut_of_history (hbefore.concat hu), hv⟩

end TableReader

/-- Closing a table is the end of it.  Whatever it is used for afterwards, in any
order and on any platform: reads and preparations are refused, asking nothing and
changing nothing; closing it again does nothing; nothing is mapped or given back
any more.  Geometry and transfers do not see any of this: those that come
afterwards are, in a row, uses of the table that was never closed, and each of them
is the same program whether the table is closed or not. -/
theorem closed_for_good {σ : Type} (platform : Platform σ) (s : σ) (t : TableReader)
    (m : Mailboxes) (calls : List TableCall) :
    ∃ closing later, uses perform platform (⟨m, .close⟩ :: calls) t s = closing :: later ∧
      (∀ before u v after, closing :: later = before ++ u :: v :: after →
        u.after.shut = u.after ∧ TurnedAway u.after v) ∧
      (∀ e ∈ journal later, e.request.isMapping = false) ∧
      (∃ vs t', History perform t vs t' ∧
        later.filter Use.isMapless = vs.map Use.shut) ∧
      ∀ call : TableCall, call.operation.isMapless = true → ∀ unclosed : TableReader,
        (perform call).run unclosed.shut = Prod.map id shut <$> (perform call).run unclosed := by
  have hall : ∃ t', History perform t (uses perform platform (⟨m, .close⟩ :: calls) t s) t' :=
    history_uses platform _ t s
  have hcalls : (uses perform platform (⟨m, .close⟩ :: calls) t s).map Use.call =
      ⟨m, .close⟩ :: calls := map_call_uses platform _ t s
  generalize uses perform platform (⟨m, .close⟩ :: calls) t s = us at hall hcalls ⊢
  obtain ⟨t', hall⟩ := hall
  cases hall with
  | nil => cases hcalls
  | @cons _ _ closing later hclosing hlater =>
    have hclose : closing.call.operation = .close :=
      congrArg TableCall.operation (List.cons_eq_cons.1 hcalls).1
    have hshut := shut_of_close hclosing hclose
    rw [hshut] at hlater
    refine ⟨closing, later, rfl, ?_, unmapping_of_history hlater, ?_,
      fun call hcall => indifferent_perform hcall⟩
    · intro before u v after hsplit
      obtain ⟨hu, hv⟩ := shut_of_split hshut hlater hsplit
      rw [← hu] at hv ⊢
      exact ⟨rfl, hv.refused⟩
    · obtain ⟨vs, t₁, hvs, -, hfilter⟩ := twin_of_history hlater
      exact ⟨vs, t₁, hvs, hfilter⟩

namespace Unread

open Simulation (World)

/-- A table that is closed before it was ever read is not made ready any more, but
it can still be transferred. -/
theorem closed_for_good_unread :
    ∃ closing refused transferred,
      uses perform (World.platform firmware)
        [⟨mailboxes, .close⟩, ⟨mailboxes, .prepare⟩, ⟨mailboxes, .transfer⟩]
        (fresh .matisse (.ofSeconds 1)) sound = [closing, refused, transferred] ∧
      refused.outcome = .prepare (.error .unsupported) ∧
      refused.events = [⟨.note .tableClosed, ()⟩] ∧ refused.after = closing.after ∧
      transferred.outcome = .transfer (.ok ()) := by
  obtain ⟨closing, later, huses, hrefused, -⟩ :=
    closed_for_good (World.platform firmware) sound (fresh .matisse (.ofSeconds 1)) mailboxes
      [⟨mailboxes, .prepare⟩, ⟨mailboxes, .transfer⟩]
  obtain ⟨rfl, rfl⟩ := List.cons_eq_cons.1 huses
  refine ⟨_, _, _, rfl, ?_⟩
  obtain ⟨-, hprepare⟩ := hrefused [] _ _ _ rfl
  obtain ⟨houtcome, hevents, hafter⟩ := hprepare.prepare rfl
  exact ⟨houtcome, hevents, hafter, rfl⟩

end Unread
end ManagementUnit
