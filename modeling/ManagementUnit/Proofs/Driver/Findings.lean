/-
  ManagementUnit.Proofs.Driver.Findings
  ────────────────────────────────
  What a search for what works has to say for itself.

  The search keeps to the plan of the generation.  It breaks off at the first message
  that fails, at a version that is none, at a step that the generation lacks, at a
  format of unknown length and at a mapping that is refused, and nowhere else
  (`CutShort`).  What it tells of the table, it tells if and only if it comes through
  (`CameThrough`).

  `Searched` holds what was exchanged and what happened besides against what is told.
  It bounds the search from both sides: without a table it goes on until something cuts
  it short, and then it has no table to tell of.

  Main results:
    * `CutShort.not_cameThrough` — the two ends exclude each other.
    * `Searched.silent`, `Searched.brokenOff`, `Searched.through` — a search without a
      version, one that breaks off behind it, and one that comes through.
    * `Searched.within`        — what is idle before and after does not matter.
-/
import ManagementUnit.Proofs.Driver.Gates
import ManagementUnit.Proofs.Driver.Plan

namespace ManagementUnit

/-! ## §1. Clock and mappings. -/

/-- Whether the second reading of the clock is more than the interval after the
first. -/
def secondDue (interval : Duration) (es : List Event) : Bool :=
  match readings es with
  | [first, second] => decide (interval < second.since first)
  | _ => false

/-- A range is asked to be mapped, and refused. -/
def Refused (es : List Event) : Prop := ∃ base length e, ⟨.map base length, .error e⟩ ∈ es

theorem refused_append {es fs : List Event} : Refused (es ++ fs) ↔ Refused es ∨ Refused fs := by
  simp only [Refused, List.mem_append]
  grind

theorem Unmapped.granted {es : List Event} (h : Unmapped es) : ¬ Refused es := by
  rintro ⟨base, length, e, he⟩
  exact h _ he base length rfl

/-- The clock is not read, and nothing is asked to be mapped. -/
structure Idle (es : List Event) : Prop where
  reading : readings es = []
  unmapped : Unmapped es

namespace Idle

variable {es fs : List Event}

theorem ofForall
    (h : ∀ e ∈ es, e.reading? = none ∧ ∀ base length, e.request ≠ .map base length) : Idle es :=
  ⟨List.filterMap_eq_nil_iff.2 fun e he => (h e he).1, fun e he => (h e he).2⟩

theorem ofInquiry (h : ∀ e ∈ es, e.Inquiry) : Idle es :=
  .ofForall fun e he => ⟨(h e he).timeless.1, (h e he).unmapped⟩

theorem nil : Idle [] := .ofForall (List.forall_mem_nil _)

theorem note (d : Diagnostic) : Idle [⟨.note d, ()⟩] :=
  .ofForall (List.forall_mem_singleton.2 ⟨rfl, nofun⟩)

theorem append (hes : Idle es) (hfs : Idle fs) : Idle (es ++ fs) := by
  refine ⟨?_, hes.unmapped.append hfs.unmapped⟩
  rw [readings_append, hes.reading, hfs.reading]
  rfl

end Idle

/-! ## §2. What the search tells. -/

/-- The search has come through to a table of length `n`: no step is lacking, all of the
plan was put to the firmware and answered, the version is one, the last format told (or
zero) has the length, and no mapping was refused. -/
structure CameThrough (c : Codename) (due : Bool) (es : List Event) (xs : List Exchange)
    (n : Nat) : Prop where
  complete : c.scheme.isComplete = true
  answered : Completes (c.searchPlan due) xs
  version : ∃ words rest, xs = ⟨.version .rsmu, .ok words⟩ :: rest ∧ 0xFF < words.word0
  length : c.tableLength? ((formatsTold c xs)[1]?.getD 0) = some n
  granted : ¬ Refused es

/-- Behind the second format, more is exchanged only if that format has a length. -/
def GoesOnMeasured (c : Codename) (xs : List Exchange) : Prop :=
  ∀ format, (formatsTold c xs.dropLast)[1]? = some format → c.tableLength? format ≠ none

namespace GoesOnMeasured

variable {c : Codename} {xs : List Exchange}

theorem of_told
    (h : ∀ format, (formatsTold c xs)[1]? = some format → c.tableLength? format ≠ none) :
    GoesOnMeasured c xs :=
  fun format hformat => h format (getElem?_formatsTold_dropLast hformat)

theorem of_length_le (h : (formatsTold c xs).length ≤ 1) : GoesOnMeasured c xs := by
  refine .of_told fun format hformat => ?_
  rw [List.getElem?_eq_none h] at hformat
  cases hformat

/-- Of the last exchange it does not matter what it told. -/
theorem of_front {front : List Exchange} {x : Exchange} (hxs : xs = front ++ [x])
    (h : (formatsTold c front).length ≤ 1) : GoesOnMeasured c xs := by
  intro format hformat
  rw [hxs, List.dropLast_concat, List.getElem?_eq_none h] at hformat
  cases hformat

end GoesOnMeasured

/-- What cuts a search short of a table. -/
inductive CutShort (c : Codename) (due : Bool) (es : List Event) (xs : List Exchange) : Prop where
  /-- There is no mailbox, and nothing was put to it. -/
  | absent (hnone : c.registers? .rsmu = none) (hxs : xs = [])
  /-- The last message failed. -/
  | failed {front : List Exchange} {x : Message} {f : Failure}
      (hxs : xs = front ++ [⟨x, .error f⟩])
  /-- The version query was answered with what is no version. -/
  | unversioned {words : Arguments} (hxs : xs = [⟨.version .rsmu, .ok words⟩])
      (hsmall : words.word0 ≤ 0xFF)
  /-- All was answered that comes before a step which the generation lacks. -/
  | lacking (hstep : c.scheme.isComplete = false) (hall : Completes (c.searchPlan due) xs)
  /-- The last answer told a format for the second time, and it is of unknown length. -/
  | unknown {front : List Exchange} {x : Message} {words : Arguments} {first : UInt32}
      (hxs : xs = front ++ [⟨x, .ok words⟩]) (hx : c.formatMessage? = some x)
      (hfirst : formatsTold c front = [first]) (hlength : c.tableLength? words.word0 = none)
  /-- All of the plan was answered, and a mapping was refused. -/
  | refused (hall : Completes (c.searchPlan due) xs) (hrefused : Refused es)

namespace CutShort

variable {c : Codename} {due : Bool} {es fs : List Event} {xs : List Exchange}

/-- A search that is cut short has not come through. -/
theorem not_cameThrough (h : CutShort c due es xs) (n : Nat) : ¬ CameThrough c due es xs n := by
  intro hcame
  cases h with
  | absent _ hxs =>
    obtain ⟨words, rest, hversion, -⟩ := hcame.version
    cases hxs.symm.trans hversion
  | failed hxs =>
    cases hcame.answered.unfailing _ (hxs ▸ List.mem_concat_self)
  | unversioned hxs hsmall =>
    obtain ⟨words, rest, hversion, hlarge⟩ := hcame.version
    cases hxs.symm.trans hversion
    exact UInt32.not_le.2 hlarge hsmall
  | lacking hstep => cases hstep.symm.trans hcame.complete
  | unknown hxs hx hfirst hunknown =>
    have hlength := hcame.length
    rw [hxs, formatsTold_append, hfirst, formatsTold_single hx] at hlength
    cases hunknown.symm.trans hlength
  | refused _ hrefused => exact hcame.granted hrefused

/-- Of the events it only counts whether a mapping was refused. -/
theorem mono (h : CutShort c due es xs) (hes : Refused es → Refused fs) : CutShort c due fs xs := by
  cases h with
  | absent hnone hxs => exact .absent hnone hxs
  | failed hxs => exact .failed hxs
  | unversioned hxs hsmall => exact .unversioned hxs hsmall
  | lacking hstep hall => exact .lacking hstep hall
  | unknown hxs hx hfirst hlength => exact .unknown hxs hx hfirst hlength
  | refused hall hrefused => exact .refused hall (hes hrefused)

end CutShort

/-- The table is found, mapped stretch by stretch and transferred. -/
structure TableReader.Ready (t : TableReader) (g : Geometry) : Prop where
  located : t.located? = some g
  mapped : ∃ mapping, t.mapping? = some mapping ∧ mapping.regions.map Region.extent = g.extents
  transferred : t.transferredAt?.isSome = true

/-- What the search tells, having put `xs` to the general purpose mailbox, when the
events are `es`. -/
structure Searched (c : Codename) (interval : Duration) (es : List Event) (xs : List Exchange)
    (capabilities : Capabilities) (t : TableReader) : Prop where
  /-- It keeps to the plan, up to the first message that fails at most. -/
  keepsTo : KeepsTo (c.searchPlan (secondDue interval es)) xs
  /-- It goes on only behind a version, -/
  versioned : ∀ x y rest, xs = x :: y :: rest →
    ∃ words, x.result = .ok words ∧ 0xFF < words.word0
  /-- and behind the second format only if that has a length. -/
  measured : GoesOnMeasured c xs
  /-- The mailbox works if and only if it told a version. -/
  generalPurpose : capabilities.generalPurpose = true ↔
    ∃ words rest, xs = ⟨.version .rsmu, .ok words⟩ :: rest ∧ 0xFF < words.word0
  /-- A length is told if and only if the search came through to it. -/
  length : ∀ n, capabilities.tableLength? = some n ↔
    CameThrough c (secondDue interval es) es xs n
  /-- It ends without a length only where something cuts it short. -/
  cutShort : capabilities.tableLength? = none → CutShort c (secondDue interval es) es xs
  /-- With a length, the table is ready, and the firmware has transferred it. -/
  ready : ∀ n, capabilities.tableLength? = some n →
    (∃ g, t.Ready g ∧ g.totalLength = n) ∧
      ∃ x words, c.transferMessage? = some x ∧ ⟨x, .ok words⟩ ∈ xs
  /-- A format is told if and only if a length is and the first format query told a
  format that is not zero. -/
  format : ∀ v, capabilities.tableFormat? = some v ↔
    capabilities.tableLength?.isSome = true ∧ v ≠ 0 ∧ (formatsTold c xs)[0]? = some v

/-! ## §3. How it can end. -/

section Reports

variable {c : Codename} {interval : Duration} {es : List Event} {t : TableReader}
  {xs : List Exchange}

/-- A search without a version tells nothing. -/
theorem Searched.silent (hkeeps : KeepsTo (c.searchPlan (secondDue interval es)) xs)
    (hlength : xs.length ≤ 1)
    (hnone : ∀ words rest, xs = ⟨.version .rsmu, .ok words⟩ :: rest → ¬ 0xFF < words.word0)
    (hcut : CutShort c (secondDue interval es) es xs) :
    Searched c interval es xs {} t := by
  have hunversioned : ¬ ∃ words rest,
      xs = ⟨.version .rsmu, .ok words⟩ :: rest ∧ 0xFF < words.word0 := by
    rintro ⟨words, rest, hxs, hlarge⟩
    exact hnone words rest hxs hlarge
  refine ⟨hkeeps, ?_, ?_, iff_of_false nofun hunversioned, ?_, fun _ => hcut, nofun, ?_⟩
  · rintro x y rest rfl
    simp at hlength
  · exact .of_length_le (Nat.le_trans length_formatsTold_le hlength)
  · intro n
    exact iff_of_false nofun (hcut.not_cameThrough n)
  · intro v
    exact iff_of_false nofun fun h => nomatch h.1

/-- A search goes on only behind a version. -/
theorem versioned_of_head
    (h : ∃ words rest, xs = ⟨.version .rsmu, .ok words⟩ :: rest ∧ 0xFF < words.word0) :
    ∀ x y rest, xs = x :: y :: rest → ∃ words, x.result = .ok words ∧ 0xFF < words.word0 := by
  obtain ⟨words, rest, rfl, hlarge⟩ := h
  intro x y rest' heq
  cases (List.cons_eq_cons.1 heq).1
  exact ⟨words, rfl, hlarge⟩

/-- A search that breaks off behind the version tells that the mailbox works. -/
theorem Searched.brokenOff
    (hversion : ∃ words rest, xs = ⟨.version .rsmu, .ok words⟩ :: rest ∧ 0xFF < words.word0)
    (hkeeps : KeepsTo (c.searchPlan (secondDue interval es)) xs)
    (hmeasured : GoesOnMeasured c xs)
    (hcut : CutShort c (secondDue interval es) es xs) :
    Searched c interval es xs { generalPurpose := true } t := by
  refine ⟨hkeeps, versioned_of_head hversion, hmeasured, iff_of_true rfl hversion, ?_,
    fun _ => hcut, nofun, ?_⟩
  · intro n
    exact iff_of_false nofun (hcut.not_cameThrough n)
  · intro v
    exact iff_of_false nofun fun h => nomatch h.1

/-- So does one that fails within a part of the plan. -/
theorem Searched.brokenWithin {part rest : List Message}
    (hversion : ∃ words rest, xs = ⟨.version .rsmu, .ok words⟩ :: rest ∧ 0xFF < words.word0)
    (hplan : c.searchPlan (secondDue interval es) = part ++ rest) (hkeeps : KeepsTo part xs)
    (hmeasured : GoesOnMeasured c xs)
    {f : Failure} (hlast : ∃ front x, xs = front ++ [⟨x, .error f⟩]) :
    Searched c interval es xs { generalPurpose := true } t := by
  obtain ⟨front, x, hxs⟩ := hlast
  refine .brokenOff hversion ?_ hmeasured (.failed hxs)
  rw [hplan]
  exact hkeeps.extend rest

/-- A search that comes through tells the length, and the first format if it is not
zero. -/
theorem Searched.through {n : Nat} {format : UInt32}
    (hcame : CameThrough c (secondDue interval es) es xs n)
    (hready : (∃ g, t.Ready g ∧ g.totalLength = n) ∧
      ∃ x words, c.transferMessage? = some x ∧ ⟨x, .ok words⟩ ∈ xs)
    (hmeasured : GoesOnMeasured c xs)
    (hfirst : ∀ v, v ≠ 0 → ((formatsTold c xs)[0]? = some v ↔ format = v)) :
    Searched c interval es xs
      { generalPurpose := true
        tableLength? := some n
        tableFormat? := if format = 0 then none else some format } t := by
  refine ⟨hcame.answered.keepsTo, versioned_of_head hcame.version, hmeasured,
    iff_of_true rfl hcame.version, ?_, nofun, ?_, ?_⟩
  · intro k
    constructor
    · rintro ⟨⟩
      exact hcame
    · intro hother
      exact hcame.length.symm.trans hother.length
  · rintro k ⟨⟩
    exact hready
  · intro v
    by_cases hzero : format = 0
    · rw [if_pos hzero]
      refine iff_of_false nofun ?_
      rintro ⟨-, hv, htold⟩
      exact hv ((hfirst v hv).1 htold ▸ hzero)
    · rw [if_neg hzero]
      constructor
      · rintro ⟨⟩
        exact ⟨rfl, hzero, (hfirst format hzero).2 rfl⟩
      · rintro ⟨-, hv, htold⟩
        rw [(hfirst v hv).1 htold]

/-- What is idle before and after a search does not matter to what it tells. -/
theorem Searched.within {front back : List Event} {capabilities : Capabilities}
    (h : Searched c interval es xs capabilities t) (hfront : Idle front) (hback : Idle back) :
    Searched c interval (front ++ (es ++ back)) xs capabilities t := by
  have hreadings : readings (front ++ (es ++ back)) = readings es := by
    rw [readings_append, readings_append, hfront.reading, hback.reading, List.nil_append,
      List.append_nil]
  have hdue : secondDue interval (front ++ (es ++ back)) = secondDue interval es := by
    rw [secondDue, hreadings, secondDue]
  have hrefused : Refused (front ++ (es ++ back)) ↔ Refused es := by
    rw [refused_append, refused_append, or_iff_right hfront.unmapped.granted,
      or_iff_left hback.unmapped.granted]
  refine ⟨?_, h.versioned, h.measured, h.generalPurpose, ?_, ?_, h.ready, h.format⟩
  · rw [hdue]
    exact h.keepsTo
  · intro n
    rw [h.length, hdue]
    refine ⟨fun hn => ⟨hn.complete, hn.answered, hn.version, hn.length, ?_⟩,
      fun hn => ⟨hn.complete, hn.answered, hn.version, hn.length, ?_⟩⟩
    · rw [hrefused]
      exact hn.granted
    · rw [← hrefused]
      exact hn.granted
  · intro hnone
    rw [hdue]
    exact (h.cutShort hnone).mono hrefused.2

end Reports

end ManagementUnit
