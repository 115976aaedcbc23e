/-
  ManagementUnit.Proofs.Driver.Course
  ────────────────────────────────
  What starting the driver can come to.

  Starting passes one gate after the other: the processor must have a name, the
  bridge must be a known one, the power management mailbox must tell a version.  What
  comes after that is a search for what works, which may break off but does not make
  the start fail.

      Detected   the search, one constructor for each step that it can break off at
      Started    the start, one constructor for each gate

  Everything that is proved about starting the driver begins with these relations,
  and not with the programs.

  Main results:
    * `reaches_detect`, `reaches_start` — a start comes to nothing else.
-/
import ManagementUnit.Driver.Start
import ManagementUnit.Proofs.Table.Course

namespace ManagementUnit

open Program (request note reaches_bind_iff reaches_done_iff reaches_lift)

/-! ## §1. Attempts in a row. -/

namespace Attempt

variable {α β : Type} {es : List Event} {r : Except Failure α}

/-- Where an attempt fails, what comes after it is not made. -/
theorem reaches_bind {x : Attempt β} {f : β → Attempt α} (h : (x >>= f).run.Reaches es r) :
    (∃ e, x.run.Reaches es (.error e) ∧ r = .error e) ∨
      ∃ fs gs b, es = fs ++ gs ∧ x.run.Reaches fs (.ok b) ∧ (f b).run.Reaches gs r := by
  obtain ⟨fs, gs, outcome, rfl, hx, hf⟩ := reaches_bind_iff.1 h
  cases outcome with
  | error e =>
    obtain ⟨rfl, rfl⟩ := reaches_done_iff.1 hf
    rw [List.append_nil]
    exact .inl ⟨e, hx, rfl⟩
  | ok b => exact .inr ⟨fs, gs, b, rfl, hx, hf⟩

/-- A lifted program always succeeds. -/
theorem reaches_lift {p : Program β} {f : β → Attempt α}
    (h : ((liftM p : Attempt β) >>= f).run.Reaches es r) :
    ∃ fs gs b, es = fs ++ gs ∧ p.Reaches fs b ∧ (f b).run.Reaches gs r := by
  obtain ⟨e, hlifted, -⟩ | ⟨_, gs, b, rfl, hlifted, hf⟩ := reaches_bind h
  · obtain ⟨_, _, _, -, -, hdone⟩ := reaches_bind_iff.1 hlifted
    cases hdone
  · obtain ⟨fs, _, _, rfl, hp, hdone⟩ := reaches_bind_iff.1 hlifted
    obtain ⟨rfl, heq⟩ := reaches_done_iff.1 hdone
    cases heq
    rw [List.append_nil]
    exact ⟨fs, gs, b, rfl, hp, hf⟩

theorem reaches_note {d : Diagnostic} {x : Attempt α}
    (h : ((liftM (note d) : Attempt Unit) >>= fun _ => x).run.Reaches es r) :
    ∃ fs, es = ⟨.note d, ()⟩ :: fs ∧ x.run.Reaches fs r := by
  obtain ⟨_, gs, _, rfl, hnote, hx⟩ := reaches_lift h
  cases hnote with
  | ask hdone =>
    cases hdone
    exact ⟨gs, rfl, hx⟩

theorem reaches_noting {x : Attempt α} {d : Failure → Diagnostic}
    (h : (x.noting d).run.Reaches es r) :
    (∃ a, x.run.Reaches es (.ok a) ∧ r = .ok a) ∨
      ∃ f fs, es = fs ++ [⟨.note (d f), ()⟩] ∧ x.run.Reaches fs (.error f) ∧ r = .error f := by
  obtain ⟨fs, gs, outcome, rfl, hx, hrest⟩ := reaches_bind_iff.1 h
  cases outcome with
  | ok a =>
    obtain ⟨rfl, rfl⟩ := reaches_done_iff.1 hrest
    rw [List.append_nil]
    exact .inl ⟨a, hx, rfl⟩
  | error f =>
    cases hrest with
    | ask hdone =>
      cases hdone
      exact .inr ⟨f, fs, rfl, hx, rfl⟩

end Attempt

/-! ## §2. The search for what works. -/

/-- What the search for what works can come to, on the table `t`. -/
inductive Capabilities.Detected (m : Mailboxes) (t : TableReader) :
    List Event → Capabilities → TableReader → Prop where
  | silent {es : List Event} {f : Failure}
      (hversion : (m.version .rsmu).run.Reaches es (.error f)) :
      Detected m t (es ++ [⟨.note (.generalPurposeSilent f), ()⟩]) {} t
  | untransferred {es fs : List Event} {v : Version} {f : Failure} {t₁ : TableReader}
      (hversion : (m.version .rsmu).run.Reaches es (.ok v))
      (htransfer : TableReader.Transferred m t fs (.error f) t₁) :
      Detected m t (es ++ (fs ++ [⟨.note (.tableUnsupported f), ()⟩])) { generalPurpose := true } t₁
  | unformatted {es fs gs : List Event} {v : Version} {f : Failure} {t₁ : TableReader}
      (hversion : (m.version .rsmu).run.Reaches es (.ok v))
      (htransfer : TableReader.Transferred m t fs (.ok ()) t₁)
      (hformat : m.formatOrZero.run.Reaches gs (.error f)) :
      Detected m t (es ++ (fs ++ (gs ++ [⟨.note (.formatUnresolved f), ()⟩])))
        { generalPurpose := true } t₁
  | unprepared {es fs gs hs : List Event} {v : Version} {format : UInt32} {f : Failure}
      {t₁ t₂ : TableReader} (hversion : (m.version .rsmu).run.Reaches es (.ok v))
      (htransfer : TableReader.Transferred m t fs (.ok ()) t₁)
      (hformat : m.formatOrZero.run.Reaches gs (.ok format))
      (hprepared : TableReader.Prepared m none t₁ hs (.error f) t₂) :
      Detected m t (es ++ (fs ++ (gs ++ (hs ++ [⟨.note (.tableUnreadable f), ()⟩]))))
        { generalPurpose := true } t₂
  | found {es fs gs hs : List Event} {v : Version} {format : UInt32} {g : Geometry}
      {mapping : TableMapping} {t₁ t₂ : TableReader}
      (hversion : (m.version .rsmu).run.Reaches es (.ok v))
      (htransfer : TableReader.Transferred m t fs (.ok ()) t₁)
      (hformat : m.formatOrZero.run.Reaches gs (.ok format))
      (hprepared : TableReader.Prepared m none t₁ hs (.ok (g, mapping)) t₂) :
      Detected m t (es ++ (fs ++ (gs ++ (hs ++ [⟨.note (.tableReadable g.totalLength), ()⟩]))))
        { generalPurpose := true
          tableLength? := some g.totalLength
          tableFormat? := if format = 0 then none else some format } t₂

/-- What a search ends with after a last note. -/
theorem reaches_last_note {d : Diagnostic} {c c' : Capabilities} {t t' : TableReader}
    {es : List Event} (h : (((liftM (note d) : StateT TableReader Program Unit) >>=
      fun _ => pure c).run t).Reaches es (c', t')) : es = [⟨.note d, ()⟩] ∧ c' = c ∧ t' = t := by
  obtain ⟨_, _, _, rfl, hnote, hdone⟩ := reaches_lift h
  cases hdone
  cases hnote with
  | ask hnote =>
    cases hnote
    exact ⟨rfl, rfl, rfl⟩

theorem reaches_detect {m : Mailboxes} {t t' : TableReader} {es : List Event}
    {capabilities : Capabilities}
    (h : ((Capabilities.detect m).run t).Reaches es (capabilities, t')) :
    Capabilities.Detected m t es capabilities t' := by
  obtain ⟨_, _, version, rfl, hversion, h⟩ := reaches_lift h
  cases version with
  | error f =>
    obtain ⟨rfl, rfl, rfl⟩ := reaches_last_note h
    exact .silent hversion
  | ok v =>
    obtain ⟨_, _, ⟨transferred, t₁⟩, rfl, htransfer, h⟩ := reaches_bind_iff.1 h
    have htransfer := TableReader.comes_transfer htransfer
    cases transferred with
    | error f =>
      obtain ⟨rfl, rfl, rfl⟩ := reaches_last_note h
      exact .untransferred hversion htransfer
    | ok _ =>
      obtain ⟨_, _, format, rfl, hformat, h⟩ := reaches_lift h
      cases format with
      | error f =>
        obtain ⟨rfl, rfl, rfl⟩ := reaches_last_note h
        exact .unformatted hversion htransfer hformat
      | ok format =>
        obtain ⟨_, _, ⟨prepared, t₂⟩, rfl, hprepared, h⟩ := reaches_bind_iff.1 h
        obtain ⟨r, hready, heq⟩ := TableReader.comes_prepare hprepared
        cases r with
        | error f =>
          cases heq
          obtain ⟨rfl, rfl, rfl⟩ := reaches_last_note h
          exact .unprepared hversion htransfer hformat hready
        | ok located =>
          cases heq
          obtain ⟨rfl, rfl, rfl⟩ := reaches_last_note h
          exact .found hversion htransfer hformat hready

/-! ## §3. Starting. -/

namespace Driver

/-- The mailboxes of a processor under some settings. -/
def mailboxesOf (settings : Settings) (p : Processor) : Mailboxes :=
  ⟨p.codename, settings.budget, settings.window⟩

/-- What starting the driver can come to. -/
inductive Started (settings : Settings) : List Event → Except Failure Driver → Prop where
  | unidentified {es : List Event} {e : IdentityError}
      (hquery : Processor.query.Reaches es (.error e)) :
      Started settings es (.error (.unidentified e))
  | unreadable {es : List Event} {p : Processor} {fault : BridgeFault}
      (hquery : Processor.query.Reaches es (.ok p)) :
      Started settings
        (es ++ [⟨.readBridge 0, .error fault⟩, ⟨.note (.bridgeUnreadable fault), ()⟩])
        (.error .unsupported)
  | unknown {es : List Event} {p : Processor} {word : UInt32}
      (hquery : Processor.query.Reaches es (.ok p))
      (hword : (BridgeId.ofWord word).isKnown = false) :
      Started settings
        (es ++ [⟨.readBridge 0, .ok word⟩, ⟨.note (.bridgeUnknown (BridgeId.ofWord word)), ()⟩])
        (.error .unsupported)
  | unversioned {es fs : List Event} {p : Processor} {word : UInt32} {f : Failure}
      (hquery : Processor.query.Reaches es (.ok p))
      (hword : (BridgeId.ofWord word).isKnown = true)
      (hversion : ((mailboxesOf settings p).version .mp1).run.Reaches fs (.error f)) :
      Started settings
        (es ++ ⟨.readBridge 0, .ok word⟩ :: ⟨.note (.mailboxesBound p.codename), ()⟩ ::
          (fs ++ [⟨.note (.versionFailed f), ()⟩]))
        (.error f)
  | started {es fs gs : List Event} {p : Processor} {word : UInt32} {v : Version}
      {capabilities : Capabilities} {table : TableReader}
      (hquery : Processor.query.Reaches es (.ok p))
      (hword : (BridgeId.ofWord word).isKnown = true)
      (hversion : ((mailboxesOf settings p).version .mp1).run.Reaches fs (.ok v))
      (hdetected : Capabilities.Detected (mailboxesOf settings p)
        { codename := p.codename, interval := settings.interval } gs capabilities table) :
      Started settings
        (es ++ ⟨.readBridge 0, .ok word⟩ :: ⟨.note (.mailboxesBound p.codename), ()⟩ ::
          (fs ++ ⟨.note (.firmwareVersion v), ()⟩ ::
            (gs ++ [⟨.note (.capabilitiesFound capabilities), ()⟩])))
        (.ok ⟨p, settings, mailboxesOf settings p, table, v, capabilities⟩)

end Driver

theorem reaches_identify {es : List Event} {r : Except Failure Processor}
    (h : Driver.identify.run.Reaches es r) :
    ∃ named, Processor.query.Reaches es named ∧ r = named.mapError Failure.unidentified := by
  obtain ⟨fs, _, named, rfl, hquery, hdone⟩ := reaches_bind_iff.1 h
  obtain ⟨rfl, rfl⟩ := reaches_done_iff.1 hdone
  rw [List.append_nil]
  exact ⟨named, hquery, rfl⟩

/-- The bridge is asked for its identity, and nothing else is accessed. -/
theorem reaches_ensureKnown {es : List Event} {r : Except Failure Unit}
    (h : BridgeId.ensureKnown.run.Reaches es r) :
    (∃ fault, es = [⟨.readBridge 0, .error fault⟩, ⟨.note (.bridgeUnreadable fault), ()⟩] ∧
        r = .error .unsupported) ∨
      ∃ word, ((BridgeId.ofWord word).isKnown = false ∧
          es = [⟨.readBridge 0, .ok word⟩, ⟨.note (.bridgeUnknown (BridgeId.ofWord word)), ()⟩] ∧
          r = .error .unsupported) ∨
        ((BridgeId.ofWord word).isKnown = true ∧ es = [⟨.readBridge 0, .ok word⟩] ∧
          r = .ok ()) := by
  obtain ⟨_, _, id, rfl, hquery, h⟩ := Attempt.reaches_lift h
  cases hquery with
  | @ask _ _ reply _ _ hquery =>
    cases reply with
    | error fault =>
      cases hquery
      obtain ⟨_, rfl, hdone⟩ := Attempt.reaches_note h
      cases hdone
      exact .inl ⟨fault, rfl, rfl⟩
    | ok word =>
      cases hquery
      refine .inr ⟨word, ?_⟩
      cases hknown : (BridgeId.ofWord word).isKnown with
      | true =>
        simp only [hknown] at h
        cases h
        exact .inr ⟨rfl, rfl, rfl⟩
      | false =>
        simp only [hknown] at h
        obtain ⟨_, rfl, hdone⟩ := Attempt.reaches_note h
        cases hdone
        exact .inl ⟨rfl, rfl, rfl⟩

theorem reaches_start {settings : Settings} {es : List Event} {r : Except Failure Driver}
    (h : (Driver.start settings).run.Reaches es r) : Driver.Started settings es r := by
  obtain ⟨f, hidentify, rfl⟩ | ⟨_, _, p, rfl, hidentify, hnamed⟩ := Attempt.reaches_bind h
  · obtain ⟨named, hquery, heq⟩ := reaches_identify hidentify
    cases named with
    | ok _ => cases heq
    | error e =>
      cases heq
      exact .unidentified hquery
  obtain ⟨named, hquery, heq⟩ := reaches_identify hidentify
  cases named with
  | error _ => cases heq
  | ok p' =>
    cases heq
    obtain ⟨f, hbridge, rfl⟩ | ⟨_, _, _, rfl, hbridge, hopen⟩ := Attempt.reaches_bind hnamed
    · obtain ⟨fault, rfl, heq⟩ | ⟨word, ⟨hword, rfl, heq⟩ | ⟨-, -, heq⟩⟩ :=
        reaches_ensureKnown hbridge
      · cases heq
        exact .unreadable hquery
      · cases heq
        exact .unknown hquery hword
      · cases heq
    obtain ⟨_, _, heq⟩ | ⟨word, ⟨_, _, heq⟩ | ⟨hword, rfl, -⟩⟩ := reaches_ensureKnown hbridge
    · cases heq
    · cases heq
    obtain ⟨_, _, m, rfl, hbind, hbound⟩ := Attempt.reaches_lift hopen
    cases hbind with
    | ask hbind =>
      cases hbind
      obtain ⟨f, hnoting, rfl⟩ | ⟨_, _, v, rfl, hnoting, htold⟩ := Attempt.reaches_bind hbound
      · obtain ⟨_, _, heq⟩ | ⟨_, _, rfl, hversion, heq⟩ := Attempt.reaches_noting hnoting
        · cases heq
        · cases heq
          exact .unversioned hquery hword hversion
      obtain ⟨_, hversion, heq⟩ | ⟨_, _, _, _, heq⟩ := Attempt.reaches_noting hnoting
      · cases heq
        obtain ⟨_, rfl, hsearch⟩ := Attempt.reaches_note htold
        obtain ⟨_, _, ⟨capabilities, table⟩, rfl, hdetect, hend⟩ := Attempt.reaches_lift hsearch
        obtain ⟨_, rfl, hdone⟩ := Attempt.reaches_note hend
        cases hdone
        exact .started hquery hword hversion (reaches_detect hdetect)
      · cases heq

end ManagementUnit
