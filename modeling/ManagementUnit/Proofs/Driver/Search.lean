/-
  ManagementUnit.Proofs.Driver.Search
  ────────────────────────────────
  The search for what works, and the start around it.

  Behind the version, the transfer and the first format query (`Prelude`), the search
  looks for the table, transfers it once more if that has become due, and maps it.
  Wherever it ends, it is held against what it tells; the start puts nothing else to
  the general purpose mailbox.

  Main results:
    * `Prelude.broken`, `Prelude.found` — what is behind the first format query.
    * `Detected.searched` — what the search tells, whatever it comes to.
    * `search_reported`   — so a start on any platform goes on until it is cut
      short or comes through, and tells how far it came.
-/
import ManagementUnit.Proofs.Driver.Findings

namespace ManagementUnit

/-! ## §1. Mappings. -/

section Mapping

variable {es : List Event}

namespace TableReader.Mapped

variable {t t' : TableReader} {g : Geometry}

theorem granted {mapping : TableMapping} (h : Mapped g t es (.ok mapping) t') : ¬ Refused es := by
  cases h with
  | kept => simp [Refused]
  | established _ hes => cases hes <;> simp [Refused]

theorem refused {f : Failure} (h : Mapped g t es (.error f) t') : Refused es := by
  cases h with
  | failed _ hes =>
    cases hes with
    | refused e => exact ⟨_, _, e, List.mem_cons_self⟩
    | undone p e => exact ⟨_, _, e, List.mem_cons_of_mem _ List.mem_cons_self⟩

theorem reading {r : Except Failure TableMapping} (h : Mapped g t es r t') : readings es = [] :=
  List.filterMap_eq_nil_iff.2 fun e he => (timeless_of_handling h.handling e he).1

/-- What was not mapped before is mapped stretch by stretch. -/
theorem extents {mapping : TableMapping} (hnone : t.mapping? = none)
    (h : Mapped g t es (.ok mapping) t') :
    t'.mapping? = some mapping ∧ mapping.regions.map Region.extent = g.extents := by
  cases h with
  | kept hsome => cases hnone.symm.trans hsome
  | established _ hes => exact ⟨rfl, hes.extents⟩

end TableReader.Mapped

/-- A table that is located, transferred and mapped for the first time is ready. -/
theorem TableReader.Mapped.ready {t t₁ t₂ t' : TableReader} {g : Geometry} {mapping : TableMapping}
    {fs gs : List Event} {b : Bool} (h : Mapped g t₂ gs (.ok mapping) t')
    (hlookup : LookedUp m t es (.ok g) t₁) (hdue : Throttled m t₁ fs (.ok b) t₂)
    (hnone : t.mapping? = none) (hstamp : t.transferredAt?.isSome = true) : t'.Ready g := by
  have hbare : t₂.mapping? = none := by
    rw [hdue.frame, hlookup.frame]
    exact hnone
  refine ⟨?_, ⟨mapping, h.extents hbare⟩, ?_⟩
  · rw [h.frame, hdue.frame]
    exact hlookup.located
  · rw [h.frame]
    cases hdue with
    | fresh =>
      rw [hlookup.frame]
      exact hstamp
    | stamped => rfl

end Mapping

/-! ## §2. Behind the first format query. -/

/-- What comes before the search looks for the table has all succeeded: the version, the
transfer and the format query, as far as there is one. -/
structure Prelude (m : Mailboxes) (interval : Duration) (x : Message) (es : List Event)
    (xs : List Exchange) (format : UInt32) (t : TableReader) : Prop where
  present : ∃ b, m.registers? .rsmu = some b
  transfer : m.codename.transferMessage? = some x
  conversation : Conversation m es xs
  completes : Completes ([.version .rsmu] ++ ([x] ++ m.codename.formatMessage?.toList)) xs
  version : ∃ words rest, xs = ⟨.version .rsmu, .ok words⟩ :: rest ∧ 0xFF < words.word0
  told : formatsTold m.codename xs = m.codename.formatMessage?.toList.map fun _ => format
  lacking : m.codename.formatMessage? = none → format = 0
  unmapped : Unmapped es
  stamped : ∃ first, readings es = [first] ∧ t.transferredAt? = some first
  frame : t = { TableReader.fresh m.codename interval with transferredAt? := t.transferredAt? }

section Stages

variable {m : Mailboxes} {interval : Duration} {x : Message} {es fs gs : List Event}
  {xs : List Exchange} {format : UInt32} {t t' : TableReader}

/-- Every message of a plan that is completed was answered. -/
theorem Completes.answered {plan : List Message} {y : Message} (h : Completes plan xs)
    (hy : y ∈ plan) : ∃ words, ⟨y, .ok words⟩ ∈ xs := by
  rw [← h.whole] at hy
  obtain ⟨⟨message, result⟩, hmem, rfl⟩ := List.mem_map.1 hy
  cases result with
  | ok words => exact ⟨words, hmem⟩
  | error f => cases h.unfailing _ hmem

/-- The version query and the transfer tell no format. -/
theorem formatsTold_started {c : Codename} (hx : c.transferMessage? = some x)
    (h : KeepsTo ([.version .rsmu] ++ [x]) xs) : formatsTold c xs = [] := by
  refine h.formatsTold ?_
  intro y hy hformat
  obtain ⟨-, hversion, htransfer, -⟩ := Codename.formatMessage?_spec hformat
  obtain hy | hy := List.mem_append.1 hy
  · exact hversion (List.mem_singleton.1 hy)
  · exact htransfer (List.mem_singleton.1 hy ▸ hx)

/-- What is put to the firmware and told before the table is looked for. -/
theorem prelude_of_formatted {v : Version} (hx : m.codename.transferMessage? = some x)
    (hversion : (m.version .rsmu).run.Reaches es (.ok v))
    (htransfer : TableReader.Transferred m (.fresh m.codename interval) fs (.ok ()) t)
    (hformat : m.formatOrZero.run.Reaches gs (.ok format)) :
    ∃ xs, Prelude m interval x (es ++ (fs ++ gs)) xs format t := by
  obtain ⟨b, words, hb, hv, hlarge⟩ := conversation_version_ok hversion
  obtain ⟨us, hus, hend⟩ := htransfer.conversation hx
  obtain ⟨ws, hws, htold⟩ := conversation_formatOrZero hb hformat
  have hidle : Idle es := .ofInquiry (asks_version _ _ _ hversion).1
  have hidle' : Idle gs := .ofInquiry (inquiry_of_formatOrZero hformat)
  have hasked : Completes [.version .rsmu] [⟨.version .rsmu, .ok words⟩] :=
    ⟨rfl, List.forall_mem_singleton.2 rfl⟩
  have hsent : Completes [x] us := hend.completes_iff.2 rfl
  have huntold := formatsTold_started hx (hasked.append hsent).keepsTo
  have hwords : Completes m.codename.formatMessage?.toList ws ∧
      formatsTold m.codename ws = m.codename.formatMessage?.toList.map (fun _ => format) ∧
      (m.codename.formatMessage? = none → format = 0) := by
    obtain ⟨hnone, rfl, hzero⟩ | ⟨y, hy, htold⟩ := htold
    · cases hzero
      rw [hnone]
      exact ⟨.nil, rfl, fun _ => rfl⟩
    · refine ⟨htold.completes, ?_, ?_⟩
      · rw [hy]
        exact htold.formatsTold
      · intro hnone
        cases hnone.symm.trans hy
  obtain ⟨hcompletes, htells, hlacking⟩ := hwords
  refine ⟨[⟨.version .rsmu, .ok words⟩] ++ (us ++ ws), ⟨b, hb⟩, hx,
    hv.append (hus.append hws), ?_, ⟨words, us ++ ws, rfl, hlarge⟩, ?_, hlacking, ?_, ?_,
    htransfer.frame⟩
  · exact hasked.append (hsent.append hcompletes)
  · rw [← List.append_assoc, formatsTold_append, huntold, htells]
    rfl
  · refine hidle.unmapped.append (.append ?_ hidle'.unmapped)
    exact htransfer.forall_events (fun e he => he.unmapped) nofun nofun
  · cases htransfer with
    | stamped now hsent =>
      refine ⟨now, ?_, rfl⟩
      have hreading : readings _ = [] := List.filterMap_eq_nil_iff.2 hsent.reading
      rw [readings_append, readings_append, readings_append, hreading, hidle.reading,
        hidle'.reading]
      rfl

namespace Prelude

/-- The second transfer is due if the first one is not recent any more. -/
theorem secondDue_eq (h : Prelude m interval x es xs format t) {now : Duration}
    (hfs : readings fs = [now]) : secondDue interval (es ++ fs) = !t.isFresh now := by
  obtain ⟨first, hfirst, hstamp⟩ := h.stamped
  have hinterval : t.interval = interval := by
    rw [h.frame]
    rfl
  have hlt : decide (interval < now.since first) = !decide (now.since first ≤ interval) := by
    rw [← decide_not, decide_eq_decide]
    exact Nat.not_le.symm
  rw [secondDue, readings_append, hfirst, hfs, TableReader.isFresh, hstamp, hinterval]
  exact hlt

theorem located?_eq_none (h : Prelude m interval x es xs format t) : t.located? = none := by
  rw [h.frame]
  rfl

/-- What locating the table and transferring it again puts to the firmware. -/
theorem throttled (h : Prelude m interval x es xs format t) {g : Geometry} {t₁ t₂ : TableReader}
    (hlookup : TableReader.LookedUp m t fs (.ok g) t₁) {r : Except Failure Bool}
    (hdue : TableReader.Throttled m t₁ gs r t₂) :
    ∃ ys zs now, Conversation m (fs ++ gs) (ys ++ zs) ∧ m.Surveyed ys (.ok g) ∧
      readings (fs ++ gs) = [now] ∧ formatsTold m.codename zs = [] ∧
      KeepsTo (m.codename.searchPlan (!t.isFresh now)) (xs ++ (ys ++ zs)) ∧
      (Completes (m.codename.searchPlan (!t.isFresh now)) (xs ++ (ys ++ zs)) ↔
        r.isOk = true) ∧
      ∀ f, r = .error f → ∃ front y, zs = front ++ [⟨y, .error f⟩] := by
  obtain ⟨⟨q, hq⟩, l, hl⟩ := Codename.scheme_of_transferMessage? h.transfer
  have hx : t₁.codename.transferMessage? = some x := by
    rw [hlookup.frame, h.frame]
    exact h.transfer
  obtain ⟨ys, hys, hsurveyed⟩ := hlookup.conversation h.located?_eq_none
  obtain ⟨now, zs, hreading, hzs, hpursued⟩ := hdue.conversation hx
  -- looking the geometry up does not touch the stamp
  have hfresh : (if t₁.isFresh now then [] else [x]) = if !t.isFresh now then [x] else [] := by
    have hsame : t₁.isFresh now = t.isFresh now := by
      rw [hlookup.frame]
      rfl
    rw [hsame]
    cases t.isFresh now <;> rfl
  rw [hfresh] at hpursued
  have honly : ∀ y ∈ if !t.isFresh now then [x] else [], y = x := by
    intro y hy
    split at hy
    · exact List.mem_singleton.1 hy
    · cases hy
  refine ⟨ys, zs, now, hys.append hzs, hsurveyed, ?_, ?_, ?_, ?_, ?_⟩
  · have htimeless : readings fs = [] :=
      List.filterMap_eq_nil_iff.2 fun e he => (hlookup.timeless e he).1
    rw [readings_append, htimeless, hreading]
    rfl
  · refine hpursued.keepsTo.formatsTold ?_
    intro y hy hformat
    exact (Codename.formatMessage?_spec hformat).2.2.1 (honly y hy ▸ h.transfer)
  · rw [Codename.searchPlan_of_transfer h.transfer hq hl]
    exact h.completes.append_keepsTo
      ((hsurveyed.completes hq hl).append_keepsTo hpursued.keepsTo)
  · rw [Codename.searchPlan_of_transfer h.transfer hq hl, ← hpursued.completes_iff]
    exact h.completes.append_iff.trans (hsurveyed.completes hq hl).append_iff
  · rintro f rfl
    refine hpursued.failed_last fun y hy => ?_
    rw [honly y hy, Codename.channel_of_transferMessage? h.transfer]
    exact h.present

theorem version_append (h : Prelude m interval x es xs format t) (ys : List Exchange) :
    ∃ words rest, xs ++ ys = ⟨.version .rsmu, .ok words⟩ :: rest ∧ 0xFF < words.word0 := by
  obtain ⟨words, rest, rfl, hlarge⟩ := h.version
  exact ⟨words, rest ++ ys, rfl, hlarge⟩

/-- Where formats have lengths, both format queries told one. -/
theorem told_both (h : Prelude m interval x es xs format t) {ys zs : List Exchange} {g : Geometry}
    (hsurveyed : m.Surveyed ys (.ok g)) (hzs : formatsTold m.codename zs = [])
    {lengths : List (UInt32 × Nat)} (hl : m.codename.layout? = some (.versioned lengths)) :
    formatsTold m.codename (xs ++ (ys ++ zs)) = [format, g.format] := by
  obtain ⟨y, hy⟩ := Codename.formatMessage?_of_versioned hl
  rw [formatsTold_append, formatsTold_append, h.told, hsurveyed.formatsTold hl, hzs, hy]
  rfl

/-- The length of the table is that of the last format that was told. -/
theorem told_last (h : Prelude m interval x es xs format t) {ys zs : List Exchange} {g : Geometry}
    (hsurveyed : m.Surveyed ys (.ok g)) (hzs : formatsTold m.codename zs = []) :
    m.codename.tableLength? ((formatsTold m.codename (xs ++ (ys ++ zs)))[1]?.getD 0) =
      some g.totalLength := by
  obtain ⟨-, l, hl⟩ := Codename.scheme_of_transferMessage? h.transfer
  rw [← hsurveyed.tableLength?_eq]
  cases l with
  | split primary secondary =>
    -- regions of fixed length have every format
    rw [Codename.tableLength?, Codename.tableLength?, hl]
    rfl
  | versioned lengths =>
    rw [h.told_both hsurveyed hzs hl]
    rfl

/-- So a second format is told only if it has a length. -/
theorem measured (h : Prelude m interval x es xs format t) {ys zs : List Exchange} {g : Geometry}
    (hsurveyed : m.Surveyed ys (.ok g)) (hzs : formatsTold m.codename zs = []) :
    GoesOnMeasured m.codename (xs ++ (ys ++ zs)) := by
  refine .of_told fun second hsecond => ?_
  have hlength := h.told_last hsurveyed hzs
  rw [hsecond, Option.getD_some] at hlength
  rw [hlength]
  exact Option.some_ne_none _

/-- A table that is not found ends the search. -/
theorem unlocated (h : Prelude m interval x es xs format t) {f : Failure}
    (hlookup : TableReader.LookedUp m t fs (.error f) t') :
    ∃ ys, Conversation m fs ys ∧
      Searched m.codename interval (es ++ fs) (xs ++ ys) { generalPurpose := true } t' := by
  obtain ⟨⟨q, hq⟩, l, hl⟩ := Codename.scheme_of_transferMessage? h.transfer
  obtain ⟨ys, hys, hsurveyed⟩ := hlookup.conversation h.located?_eq_none
  have hkeeps := h.completes.append_keepsTo (hsurveyed.keepsTo hq hl)
  obtain ⟨rest, hplan⟩ : ∃ rest, m.codename.searchPlan (secondDue interval (es ++ fs)) =
      ([.version .rsmu] ++ ([x] ++ m.codename.formatMessage?.toList)) ++
        (q.messages ++ l.messages m.codename) ++ rest := by
    rw [Codename.searchPlan_of_transfer h.transfer hq hl, ← List.append_assoc]
    exact ⟨_, rfl⟩
  refine ⟨ys, hys, ?_⟩
  obtain ⟨front, y, hfront, hend⟩ := hsurveyed.broken hq hl
  -- the first format was told before the table was looked for
  have htold : formatsTold m.codename (xs ++ front) =
      m.codename.formatMessage?.toList.map fun _ => format := by
    rw [formatsTold_append, h.told, hfront, List.append_nil]
  have honce : (formatsTold m.codename (xs ++ front)).length ≤ 1 := by
    rw [htold]
    cases m.codename.formatMessage? <;> simp
  obtain rfl | ⟨words, rfl, hy, hunknown⟩ := hend
  · have hsplit := (List.append_assoc xs front [⟨y, .error f⟩]).symm
    exact .brokenWithin (h.version_append _) hplan hkeeps (.of_front hsplit honce)
      ⟨_, _, hsplit⟩
  · have hsplit := (List.append_assoc xs front [⟨y, .ok words⟩]).symm
    rw [hy] at htold
    refine .brokenOff (h.version_append _) ?_ (.of_front hsplit honce)
      (.unknown hsplit hy htold hunknown)
    rw [hplan]
    exact hkeeps.extend _

/-- A table that cannot be made ready ends the search. -/
theorem broken (h : Prelude m interval x es xs format t) {f : Failure}
    (hprepared : TableReader.Prepared m none t fs (.error f) t') :
    ∃ ys, Conversation m fs ys ∧
      Searched m.codename interval (es ++ fs) (xs ++ ys) { generalPurpose := true } t' := by
  generalize hr : Except.error f = r at hprepared
  cases hprepared with
  | closed hclosed =>
    rw [h.frame] at hclosed
    cases hclosed
  | short _ _ hroom => cases hroom
  | unlocated _ hlookup =>
    cases hr
    exact h.unlocated hlookup
  | @renewed _ _ _ _ _ r _ hlookup _ hrenewed =>
    cases r with
    | ok => cases hr
    | error f =>
      cases hrenewed with
      | untransferred hdue =>
        obtain ⟨ys, zs, now, hys, hsurveyed, hreading, hzs, hkeeps, -, hlast⟩ :=
          h.throttled hlookup hdue
        refine ⟨ys ++ zs, hys, ?_⟩
        have hplan := congrArg m.codename.searchPlan (h.secondDue_eq hreading)
        rw [← List.append_nil (m.codename.searchPlan (!t.isFresh now))] at hplan
        exact .brokenWithin (h.version_append _) hplan hkeeps (h.measured hsurveyed hzs)
          (failed_last_append (failed_last_append (hlast _ rfl) ys) xs)
      | mapped hdue hmap =>
        obtain ⟨ys, zs, now, hys, hsurveyed, hreading, hzs, hkeeps, hend, -⟩ :=
          h.throttled hlookup hdue
        rw [← List.append_assoc]
        refine ⟨ys ++ zs, hys.followed hmap.conversation, .brokenOff (h.version_append _) ?_
          (h.measured hsurveyed hzs) ?_⟩
        · rw [h.secondDue_eq (by rw [readings_append, hreading, hmap.reading, List.append_nil])]
          exact hkeeps
        · rw [h.secondDue_eq (by rw [readings_append, hreading, hmap.reading, List.append_nil])]
          refine .refused (hend.2 rfl) ?_
          rw [refused_append, refused_append]
          exact .inr (.inr hmap.refused)

/-- The format that the capabilities tell is the first one that was told. -/
theorem told_first (h : Prelude m interval x es xs format t) (ys : List Exchange) {v : UInt32}
    (hv : v ≠ 0) : (formatsTold m.codename (xs ++ ys))[0]? = some v ↔ format = v := by
  rw [formatsTold_append, h.told]
  cases hformat : m.codename.formatMessage? with
  | some y => exact Option.some_inj
  | none =>
    have hnil : formatsTold m.codename ys = [] := by
      refine formatsTold_eq_nil fun _ _ hsome => ?_
      cases hformat.symm.trans hsome
    rw [hnil, h.lacking hformat]
    exact iff_of_false nofun hv.symm

/-- A table that is located, transferred where that is due and mapped behind the prelude
is ready, and no mapping was refused. -/
theorem ready (h : Prelude m interval x es xs format t) {g : Geometry} {mapping : TableMapping}
    {hs : List Event} {t₁ t₂ : TableReader} {b : Bool}
    (hlookup : TableReader.LookedUp m t fs (.ok g) t₁)
    (hdue : TableReader.Throttled m t₁ gs (.ok b) t₂)
    (hmap : TableReader.Mapped g t₂ hs (.ok mapping) t') :
    t'.Ready g ∧ ¬ Refused (es ++ (fs ++ gs ++ hs)) := by
  constructor
  · obtain ⟨first, -, hstamp⟩ := h.stamped
    refine hmap.ready hlookup hdue ?_ ?_
    · rw [h.frame]
      rfl
    · rw [hstamp]
      rfl
  · have hfs : Unmapped fs := hlookup.forall_events (fun e he => he.unmapped) fun _ => nofun
    have hgs : Unmapped gs := hdue.forall_events (fun e he => he.unmapped) nofun nofun
    rw [refused_append, refused_append]
    rintro (hes | hbefore | hhs)
    · exact h.unmapped.granted hes
    · exact (hfs.append hgs).granted hbefore
    · exact hmap.granted hhs

/-- A table that is ready comes with its geometry, and with every format that was told on
the way. -/
theorem found (h : Prelude m interval x es xs format t) {g : Geometry} {mapping : TableMapping}
    (hprepared : TableReader.Prepared m none t fs (.ok (g, mapping)) t') :
    ∃ ys, Conversation m fs ys ∧ t'.Ready g ∧
      m.codename.tableLength? g.format = some g.totalLength ∧
      (∀ lengths, m.codename.layout? = some (.versioned lengths) →
        formatsTold m.codename (xs ++ ys) = [format, g.format]) ∧
      Searched m.codename interval (es ++ fs) (xs ++ ys)
        { generalPurpose := true
          tableLength? := some g.totalLength
          tableFormat? := if format = 0 then none else some format } t' := by
  obtain ⟨front, _, t₁, rfl, hlookup, hrenewed⟩ := hprepared.ready
  cases hrenewed with
  | @mapped ds ms _ _ t₂ _ hdue hmap =>
    obtain ⟨ys, zs, now, hys, hsurveyed, hreading, hzs, -, hend, -⟩ := h.throttled hlookup hdue
    obtain ⟨hready, hgranted⟩ := h.ready hlookup hdue hmap
    rw [← List.append_assoc]
    have hsecond : secondDue interval (es ++ (front ++ ds ++ ms)) = !t.isFresh now :=
      h.secondDue_eq (by rw [readings_append, hreading, hmap.reading, List.append_nil])
    obtain ⟨words, hsent⟩ := h.completes.answered (y := x) (by simp)
    refine ⟨ys ++ zs, hys.followed hmap.conversation, hready, hsurveyed.tableLength?_eq,
      fun lengths hl => h.told_both hsurveyed hzs hl,
      .through ?_ ?_ (h.measured hsurveyed hzs) fun v => h.told_first _⟩
    · rw [hsecond]
      exact ⟨Codename.isComplete_of_transferMessage? h.transfer, hend.2 rfl,
        h.version_append _, h.told_last hsurveyed hzs, hgranted⟩
    · exact ⟨⟨g, hready, rfl⟩, x, words, h.transfer, List.mem_append_left _ hsent⟩

end Prelude
end Stages

/-! ## §3. The whole search. -/

/-- A version query that fails comes to a search that tells nothing. -/
theorem searched_of_silent {m : Mailboxes} {interval : Duration} {es : List Event} {f : Failure}
    {t : TableReader} (h : (m.version .rsmu).run.Reaches es (.error f)) :
    ∃ xs, Conversation m es xs ∧ Searched m.codename interval es xs {} t := by
  obtain ⟨rest, hplan⟩ := m.codename.searchPlan_eq_cons (secondDue interval es)
  obtain ⟨hnone, hxs, -⟩ | ⟨b, answer, hb, hxs, hf⟩ := conversation_version h
  · exact ⟨[], hxs, .silent (.nil _) (Nat.zero_le _) nofun (.absent hnone rfl)⟩
  · have hsmall : ∀ words, answer = .ok words → ¬ 0xFF < words.word0 := by
      rintro words rfl hlarge
      rw [← Version.ofAnswer_isOk] at hlarge
      have hf : Version.ofAnswer words = .error f := hf.symm
      rw [hf] at hlarge
      cases hlarge
    refine ⟨_, hxs, .silent ?_ (Nat.le_refl _) ?_ ?_⟩
    · rw [hplan]
      exact ⟨List.prefix_append _ _, List.forall_mem_nil _⟩
    · intro words rest heq
      cases heq
      exact hsmall words rfl
    · cases answer with
      | error e => exact .failed (List.nil_append _).symm
      | ok words => exact .unversioned rfl (UInt32.not_lt.1 (hsmall words rfl))

section Detection

variable {m : Mailboxes} {interval : Duration} {es fs gs : List Event} {f : Failure} {v : Version}
  {t t' : TableReader}

/-- So far comes a search whose transfer fails. -/
theorem searched_of_untransferred (hversion : (m.version .rsmu).run.Reaches es (.ok v))
    (htransfer : TableReader.Transferred m (.fresh m.codename interval) fs (.error f) t) :
    ∃ xs, Conversation m (es ++ fs) xs ∧
      Searched m.codename interval (es ++ fs) xs { generalPurpose := true } t := by
  obtain ⟨b, words, hb, hv, hlarge⟩ := conversation_version_ok hversion
  have htold : Completes [.version .rsmu] [⟨.version .rsmu, .ok words⟩] :=
    ⟨rfl, List.forall_mem_singleton.2 rfl⟩
  cases hx : m.codename.transferMessage? with
  | none =>
    -- nothing is sent where there is no transfer command
    cases htransfer with
    | failed hsent =>
      obtain ⟨rfl, -⟩ := hsent.lacking_of_none hx
      rw [List.append_nil]
      have hplan := Codename.searchPlan_of_lacking hx (secondDue interval es)
      refine ⟨_, hv, .brokenOff ⟨words, [], rfl, hlarge⟩ (hplan ▸ htold.keepsTo)
        (.of_length_le length_formatsTold_le) (.lacking ?_ (hplan ▸ htold))⟩
      refine Bool.eq_false_iff.2 fun hcomplete => ?_
      obtain ⟨x, hsome⟩ := Codename.transferMessage?_of_isComplete hcomplete
      cases hx.symm.trans hsome
  | some x =>
    obtain ⟨⟨q, hq⟩, l, hl⟩ := Codename.scheme_of_transferMessage? hx
    obtain ⟨us, hus, hpursued⟩ := htransfer.conversation hx
    have hchannel := Codename.channel_of_transferMessage? hx
    have hlast := hpursued.failed_last (List.forall_mem_singleton.2 ⟨b, hchannel ▸ hb⟩)
    have huntold := formatsTold_started (c := m.codename) hx
      (htold.append_keepsTo hpursued.keepsTo)
    refine ⟨_, hv.append hus, .brokenWithin ⟨words, us, rfl, hlarge⟩
      (Codename.searchPlan_of_transfer hx hq hl _)
      (htold.append_keepsTo (hpursued.keepsTo.extend _)) (.of_length_le ?_)
      (failed_last_append hlast _)⟩
    rw [huntold]
    exact Nat.zero_le 1

/-- So far comes a search whose format query fails. -/
theorem searched_of_unformatted (hversion : (m.version .rsmu).run.Reaches es (.ok v))
    (htransfer : TableReader.Transferred m (.fresh m.codename interval) fs (.ok ()) t)
    (hformat : m.formatOrZero.run.Reaches gs (.error f)) :
    ∃ xs, Conversation m (es ++ (fs ++ gs)) xs ∧
      Searched m.codename interval (es ++ (fs ++ gs)) xs { generalPurpose := true } t := by
  obtain ⟨b, words, hb, hv, hlarge⟩ := conversation_version_ok hversion
  have htold : Completes [.version .rsmu] [⟨.version .rsmu, .ok words⟩] :=
    ⟨rfl, List.forall_mem_singleton.2 rfl⟩
  obtain ⟨x, hx⟩ := htransfer.transferMessage?
  obtain ⟨⟨q, hq⟩, l, hl⟩ := Codename.scheme_of_transferMessage? hx
  obtain ⟨us, hus, hpursued⟩ := htransfer.conversation hx
  have hsent : Completes [x] us := hpursued.completes_iff.2 rfl
  obtain ⟨ws, hws, ⟨-, -, heq⟩ | ⟨y, hy, htells⟩⟩ := conversation_formatOrZero hb hformat
  · cases heq
  · have hkeeps := htold.append_keepsTo (hsent.append_keepsTo htells.keepsTo)
    have hchannel := (Codename.formatMessage?_spec hy).1
    have hlast := htells.failed_last hy ⟨b, hchannel ▸ hb⟩
    have huntold := formatsTold_started (c := m.codename) hx (htold.append hsent).keepsTo
    have honce :
        (formatsTold m.codename ([⟨.version .rsmu, .ok words⟩] ++ (us ++ ws))).length ≤ 1 := by
      rw [← List.append_assoc, formatsTold_append, huntold, List.nil_append]
      refine Nat.le_trans length_formatsTold_le ?_
      have hlength := htells.keepsTo.leading.length_le
      rwa [hy, List.length_map] at hlength
    exact ⟨_, hv.append (hus.append hws), .brokenWithin ⟨words, us ++ ws, rfl, hlarge⟩
      (Codename.searchPlan_of_transfer hx hq hl _) hkeeps (.of_length_le honce)
      (failed_last_append (failed_last_append hlast us) _)⟩

end Detection

/-- The last event of a search takes note of how it ended. -/
theorem searched_noted {m : Mailboxes} {interval : Duration} {es : List Event}
    {capabilities : Capabilities} {t : TableReader} {d : Diagnostic}
    (hd : (Request.note d).isAside = true)
    (h : ∃ xs, Conversation m es xs ∧ Searched m.codename interval es xs capabilities t) :
    ∃ xs, Conversation m (es ++ [⟨.note d, ()⟩]) xs ∧
      Searched m.codename interval (es ++ [⟨.note d, ()⟩]) xs capabilities t := by
  obtain ⟨xs, hxs, hsearched⟩ := h
  have hend : Conversation m [⟨.note d, ()⟩] [] := .ofAside (List.forall_mem_singleton.2 hd)
  exact ⟨xs, hxs.followed hend, hsearched.within .nil (.note d)⟩

/-- However far the search comes, it tells just that. -/
theorem Capabilities.Detected.searched {m : Mailboxes} {interval : Duration} {es : List Event}
    {capabilities : Capabilities} {t : TableReader}
    (h : Capabilities.Detected m (.fresh m.codename interval) es capabilities t) :
    ∃ xs, Conversation m es xs ∧ Searched m.codename interval es xs capabilities t := by
  cases h with
  | silent hversion => exact searched_noted rfl (searched_of_silent hversion)
  | untransferred hversion htransfer =>
    rw [← List.append_assoc]
    exact searched_noted rfl (searched_of_untransferred hversion htransfer)
  | @unformatted es fs gs _ _ _ hversion htransfer hformat =>
    rw [← List.append_assoc fs, ← List.append_assoc]
    exact searched_noted rfl (searched_of_unformatted hversion htransfer hformat)
  | @unprepared es fs gs hs _ _ _ _ _ hversion htransfer hformat hprepared =>
    obtain ⟨x, hx⟩ := htransfer.transferMessage?
    obtain ⟨xs, hprelude⟩ := prelude_of_formatted hx hversion htransfer hformat
    obtain ⟨ys, hys, hsearched⟩ := hprelude.broken hprepared
    rw [← List.append_assoc gs, ← List.append_assoc fs, ← List.append_assoc,
      ← List.append_assoc fs, ← List.append_assoc es]
    exact searched_noted rfl ⟨_, hprelude.conversation.append hys, hsearched⟩
  | @found es fs gs hs _ _ _ _ _ _ hversion htransfer hformat hprepared =>
    obtain ⟨x, hx⟩ := htransfer.transferMessage?
    obtain ⟨xs, hprelude⟩ := prelude_of_formatted hx hversion htransfer hformat
    obtain ⟨ys, hys, -, -, -, hsearched⟩ := hprelude.found hprepared
    rw [← List.append_assoc gs, ← List.append_assoc fs, ← List.append_assoc,
      ← List.append_assoc fs, ← List.append_assoc es]
    exact searched_noted rfl ⟨_, hprelude.conversation.append hys, hsearched⟩

/-! ## §4. The start. -/

/-- Naming the processor is aside of everything that a search is about. -/
theorem idle_of_query (m : Mailboxes) {es : List Event} {r : Except IdentityError Processor}
    (h : Processor.query.Reaches es r) : Idle es ∧ Conversation m es [] := by
  have hnaming := naming_of_query h
  constructor
  · refine .ofForall ?_
    rintro ⟨request, reply⟩ he
    cases Request.naming_of_isNaming (hnaming _ he) <;> exact ⟨rfl, nofun⟩
  · refine .ofAside ?_
    rintro ⟨request, reply⟩ he
    cases Request.naming_of_isNaming (hnaming _ he) <;> rfl

/-- What a start puts to the mailboxes and tells of it, when the events are `es` and the
processor has, or lacks, a name. -/
inductive Driver.Reported (settings : Settings) (es : List Event) :
    Except IdentityError Processor → Except Failure Driver → Prop where
  /-- A processor without a name has no mailboxes, and whichever it had, nothing is put to
  them. -/
  | unidentified {e : IdentityError} (h : ∀ m, Conversation m es []) :
      Reported settings es (.error e) (.error (.unidentified e))
  /-- A start that fails behind the name puts nothing to the general purpose mailbox of the
  processor. -/
  | failed {p : Processor} {xs : List Exchange} {f : Failure}
      (h : Conversation (mailboxesOf settings p) es xs)
      (hchannel : ∀ x ∈ xs, x.message.channel = .mp1) : Reported settings es (.ok p) (.error f)
  /-- One that succeeds puts the version query to the power management mailbox first; all
  the rest is the search. -/
  | started {p : Processor} {d : Driver} {x : Exchange} {xs : List Exchange}
      (hprocessor : d.processor = p) (hmailboxes : d.mailboxes = mailboxesOf settings p)
      (h : Conversation d.mailboxes es (x :: xs)) (hfirst : x.message = .version .mp1)
      (hchannel : ∀ y ∈ xs, y.message.channel = .rsmu)
      (hsearched : Searched d.processor.codename settings.interval es xs d.capabilities d.table) :
      Reported settings es (.ok p) (.ok d)

/-- In a start that succeeds, the search is all there is behind the version query of the
power management mailbox. -/
theorem conversation_of_started {m : Mailboxes} {es fs gs : List Event} {p : Processor}
    {word : UInt32} {v : Version} {capabilities : Capabilities} {xs : List Exchange}
    (hquery : Processor.query.Reaches es (.ok p))
    (hversion : (m.version .mp1).run.Reaches fs (.ok v)) (hxs : Conversation m gs xs) :
    ∃ words, Conversation m
      (es ++ ⟨.readBridge 0, .ok word⟩ :: ⟨.note (.mailboxesBound p.codename), ()⟩ ::
        (fs ++ ⟨.note (.firmwareVersion v), ()⟩ ::
          (gs ++ [⟨.note (.capabilitiesFound capabilities), ()⟩])))
      (⟨.version .mp1, .ok words⟩ :: xs) := by
  obtain ⟨-, hnamed⟩ := idle_of_query m hquery
  obtain ⟨b, words, -, hfirst, -⟩ := conversation_version_ok hversion
  have hnote : Conversation m [⟨.note (.capabilitiesFound capabilities), ()⟩] [] := .aside rfl .nil
  exact ⟨words, hnamed.append
    (.aside rfl (.aside rfl (hfirst.append (.aside rfl (hxs.followed hnote)))))⟩

/-- However a platform answers, a start puts the search and nothing else to the general
purpose mailbox, and tells just how far it came. -/
theorem search_reported {σ : Type} (platform : Platform σ) (s : σ) (settings : Settings) :
    Driver.Reported settings ((Driver.start settings).run.journal platform s)
      (Processor.query.run platform s).1 ((Driver.start settings).run.run platform s).1 := by
  have hstart := reaches_start (Program.reaches_journal platform (Driver.start settings).run s)
  have hanswers : Answers platform s _ _ := .ofJournal (Driver.start settings).run s
  generalize (Driver.start settings).run.journal platform s = es at hstart hanswers ⊢
  generalize ((Driver.start settings).run.run platform s).1 = r at hstart ⊢
  generalize ((Driver.start settings).run.run platform s).2 = s' at hanswers
  cases hstart with
  | unidentified hquery =>
    rw [← List.append_nil es] at hanswers
    rw [(hquery.answered hanswers).2.1]
    exact .unidentified fun m => (idle_of_query m hquery).2
  | @unreadable _ p _ hquery | @unknown _ p _ hquery =>
    rw [(hquery.answered hanswers).2.1]
    refine .failed (.append (idle_of_query (Driver.mailboxesOf settings p) hquery).2 (.ofAside ?_))
      (List.forall_mem_nil _)
    simp [Request.isAside]
  | @unversioned es fs p word f hquery hword hversion =>
    rw [(hquery.answered hanswers).2.1]
    obtain ⟨-, hnamed⟩ := idle_of_query (Driver.mailboxesOf settings p) hquery
    have hend : Conversation (Driver.mailboxesOf settings p) [⟨.note (.versionFailed f), ()⟩] [] :=
      .aside rfl .nil
    obtain ⟨-, hxs, -⟩ | ⟨b, answer, -, hxs, -⟩ := conversation_version hversion
    · exact .failed (hnamed.append (.aside rfl (.aside rfl (hxs.append hend))))
        (List.forall_mem_nil _)
    · exact .failed (hnamed.append (.aside rfl (.aside rfl (hxs.append hend))))
        (List.forall_mem_singleton.2 rfl)
  | @started es fs gs p word v capabilities table hquery hword hversion hdetected =>
    rw [(hquery.answered hanswers).2.1]
    obtain ⟨hidle, -⟩ := idle_of_query (Driver.mailboxesOf settings p) hquery
    obtain ⟨xs, hxs, hsearched⟩ := Capabilities.Detected.searched hdetected
    obtain ⟨words, hall⟩ := conversation_of_started hquery hversion hxs
    have hchannel : ∀ y ∈ xs, y.message.channel = .rsmu := fun y hy =>
      Codename.channel_of_searchPlan _ _ _ (hsearched.keepsTo.leading.subset
        (List.mem_map_of_mem hy))
    refine .started rfl rfl hall rfl hchannel ?_
    -- what comes before the search neither reads the clock nor maps anything
    have hfront : Idle (es ++ (⟨.readBridge 0, .ok word⟩ ::
        ⟨.note (.mailboxesBound p.codename), ()⟩ ::
          (fs ++ [⟨.note (.firmwareVersion v), ()⟩]))) := by
      refine hidle.append ?_
      have hversioned : Idle fs := .ofInquiry (asks_version _ _ _ hversion).1
      have hbridge : Idle [⟨.readBridge 0, .ok word⟩] :=
        .ofForall (List.forall_mem_singleton.2 ⟨rfl, nofun⟩)
      exact hbridge.append ((Idle.note _).append (hversioned.append (.note _)))
    have hwhole := hsearched.within hfront (.note (.capabilitiesFound capabilities))
    simp only [List.append_assoc, List.cons_append, List.nil_append] at hwhole
    exact hwhole

end ManagementUnit
