/-
  ManagementUnit.Proofs.Simulation.Clock
  ────────────────────────────────
  A clock that goes round, and the throttle that goes by it.

  A step is cut to what 64 bits hold, but the count of a simulated clock is not: it
  begins again at zero, one turn of 2^64 nanoseconds further on.  A reading that falls
  below the one before it tells of such a turn, so on every row of steps

      last reading + falls · turn = first reading + all that the steps add

  and the readings never fall if and only if the count stays within the first turn.

  The throttle of a table compares the interval with the difference of two readings, and
  takes a negative difference for none.  So each fall since the last transfer costs it a
  turn, and it may be held up by a reading that is earlier than the stamp.  When that is,
  the law tells, and it does not matter when the clock is moved: between the uses of the
  table or while a command is on its way (`World.handled`).

  Main results:
    * `Clock.nanos_advanceAll`    — readings, falls and steps in a row.
    * `Clock.shown_pairwise_iff`  — when the readings of a clock never fall.
    * `World.readings_of_answers` — what two readings have to do with each other.
    * `elapsed_of_history`        — what the throttle makes of them.
    * `clock_goes_round`          — all of it for a table on a simulated machine.
-/
import ManagementUnit.Proofs.History
import ManagementUnit.Proofs.Table.Throttle
import ManagementUnit.Proofs.Table.Provenance
import ManagementUnit.Simulation.World

namespace ManagementUnit

/-! ## §1. Readings that fall. -/

instance : Trans (α := Duration) (· ≤ ·) (· ≤ ·) (· ≤ ·) := ⟨Nat.le_trans⟩

/-- How often a reading is less than the one before it. -/
def falls (times : List Duration) : Nat :=
  (times.zip times.tail).countP fun pair => pair.2 < pair.1

theorem falls_cons_cons (a b : Duration) (times : List Duration) :
    falls (a :: b :: times) = falls (b :: times) + if b < a then 1 else 0 := by
  show List.countP _ ((a, b) :: (b :: times).zip times) = _
  rw [List.countP_cons]
  simp only [decide_eq_true_eq]
  rfl

/-- Where no reading is less than the one before it, none is less than any before. -/
theorem falls_eq_zero_iff {times : List Duration} : falls times = 0 ↔ times.Pairwise (· ≤ ·) := by
  rw [← List.isChain_iff_pairwise]
  induction times with
  | nil => exact iff_of_true rfl .nil
  | cons a times ih =>
    cases times with
    | nil => exact iff_of_true rfl (.singleton a)
    | cons b times =>
      rw [falls_cons_cons, List.isChain_cons_cons, ← ih, Nat.add_eq_zero_iff, and_comm]
      refine and_congr_left' ?_
      by_cases hlt : b < a
      · rw [if_pos hlt]
        exact iff_of_false Nat.one_ne_zero (Nat.not_le_of_lt hlt)
      · rw [if_neg hlt]
        exact iff_of_true rfl (Nat.le_of_not_lt hlt)

namespace Simulation

/-! ## §2. The clock. -/

namespace Clock

/-- How far the count goes before it begins again. -/
def turn : Nat := 0x10000000000000000

/-- What a step adds to the count, the part that makes a turn full included. -/
def worth (step : Duration) : Nat := min step.nanos 0xFFFFFFFFFFFFFFFF

/-- What steps in a row add. -/
def total (steps : List Duration) : Nat := steps.foldr (fun step sum => worth step + sum) 0

/-- Moves the clock on, step by step. -/
def advanceAll (c : Clock) (steps : List Duration) : Clock := steps.foldl advance c

/-- What the clock shows at first, and after each step. -/
def shown (c : Clock) (steps : List Duration) : List Duration := (steps.scanl advance c).map now

variable (c : Clock) (steps : List Duration)

theorem nanos_lt : c.nanos.toNat < turn := c.nanos.toNat_lt

theorem advanceAll_append (steps' : List Duration) :
    c.advanceAll (steps ++ steps') = (c.advanceAll steps).advanceAll steps' :=
  List.foldl_append

theorem shown_cons (step : Duration) :
    c.shown (step :: steps) = c.now :: (c.advance step).shown steps :=
  congrArg (List.map now) List.scanl_cons

/-- The first reading is there before any step. -/
theorem shown_eq_cons : ∃ later, c.shown steps = c.now :: later := by
  cases steps with
  | nil => exact ⟨[], rfl⟩
  | cons step steps => exact ⟨_, c.shown_cons steps step⟩

/-- A step that does not show as a fall shows as what it adds; one that does makes a
turn full. -/
theorem nanos_advance (step : Duration) :
    (c.advance step).nanos.toNat + (if (c.advance step).now < c.now then 1 else 0) * turn =
      c.nanos.toNat + worth step := by
  have hcount : (c.advance step).nanos.toNat = (c.nanos.toNat + worth step) % turn := by
    have hworth : worth step < turn := Nat.lt_of_le_of_lt (Nat.min_le_right _ _) (by decide)
    show (c.nanos + UInt64.ofNat (worth step)).toNat = _
    rw [UInt64.toNat_add, UInt64.toNat_ofNat_of_lt' hworth]
    rfl
  have hfall : (c.advance step).now < c.now ↔ (c.advance step).nanos.toNat < c.nanos.toNat :=
    Iff.rfl
  have hbefore := c.nanos_lt
  have hworth : worth step ≤ 0xFFFFFFFFFFFFFFFF := Nat.min_le_right _ _
  rw [hcount] at hfall ⊢
  unfold turn at *
  by_cases hlt : (c.advance step).now < c.now
  · rw [if_pos hlt]
    have hless := hfall.1 hlt
    omega
  · rw [if_neg hlt]
    have hnotless := mt hfall.2 hlt
    omega

/-- The last reading of a row and the falls make up for all that the steps add. -/
theorem nanos_advanceAll :
    (c.advanceAll steps).nanos.toNat + falls (c.shown steps) * turn =
      c.nanos.toNat + total steps := by
  -- by induction on the steps, from the clock that the first one leaves
  induction steps generalizing c with
  | nil =>
    have hnone : falls (c.shown []) = 0 := rfl
    rw [hnone, Nat.zero_mul]
    rfl
  | cons step steps ih =>
    have hrest := ih (c.advance step)
    have hstep := c.nanos_advance step
    obtain ⟨later, hlater⟩ := (c.advance step).shown_eq_cons steps
    have htotal : total (step :: steps) = worth step + total steps := rfl
    show ((c.advance step).advanceAll steps).nanos.toNat + _ = _
    rw [shown_cons, hlater, falls_cons_cons, ← hlater, htotal, Nat.add_mul]
    omega

/-- The readings of a clock never fall if and only if its count stays within the
turn. -/
theorem shown_pairwise_iff :
    (c.shown steps).Pairwise (· ≤ ·) ↔ c.nanos.toNat + total steps < turn := by
  have hlaw := c.nanos_advanceAll steps
  have hlast := (c.advanceAll steps).nanos_lt
  rw [← falls_eq_zero_iff]
  generalize falls (c.shown steps) = n at hlaw ⊢
  unfold turn at *
  omega

end Clock

/-! ## §3. A machine whose clock is moved by hand. -/

namespace World

variable {η : Type} {firmware : Firmware (η × Memory)}
  {s s' : World η × List (List Duration)} {es mid fs : List Event} {a b : Duration}

/-- The machine while somebody moves its clock: before each request the next steps on
the list are made, as long as there are any. -/
def handled (firmware : Firmware (η × Memory)) : Platform (World η × List (List Duration))
  | r, (w, hands) =>
    let moved := { w with clock := w.clock.advanceAll (hands.headD []) }
    let (reply, w') := platform firmware r moved
    (reply, w', hands.tail)

/-- Nothing that is asked of the machine moves its clock. -/
theorem clock_platform (r : Request) (w : World η) :
    (platform firmware r w).2.clock = w.clock := by
  cases r <;> rfl

/-- So the clock is moved by the steps that are made before the requests, and by them
alone. -/
theorem clock_of_answers (h : Answers (handled firmware) s es s') :
    s'.1.clock = s.1.clock.advanceAll (s.2.take es.length).flatten ∧
      s'.2 = s.2.drop es.length := by
  induction h with
  | nil => exact ⟨rfl, rfl⟩
  | @cons r s s' es _ ih =>
    obtain ⟨w, hands⟩ := s
    obtain ⟨hclock, hhands⟩ := ih
    have hmoved : (handled firmware r (w, hands)).2.1.clock =
        w.clock.advanceAll (hands.headD []) := clock_platform r _
    have hsteps : (hands.take (es.length + 1)).flatten =
        hands.headD [] ++ (hands.tail.take es.length).flatten := by
      cases hands with
      | nil => simp
      | cons steps hands => rfl
    constructor
    · rw [List.length_cons, hclock, hmoved, hsteps, Clock.advanceAll_append]
      rfl
    · rw [List.length_cons, hhands, ← List.drop_tail]
      rfl

/-- A reading is what the clock shows after all steps that were made until then. -/
theorem reading_of_answers (h : Answers (handled firmware) s (es ++ ⟨.now, a⟩ :: fs) s') :
    ∃ s₁, a = s₁.1.clock.now ∧
      s₁.1.clock = s.1.clock.advanceAll (s.2.take (es.length + 1)).flatten ∧
      s₁.2 = s.2.drop (es.length + 1) ∧ Answers (handled firmware) s₁ fs s' := by
  rw [List.append_cons] at h
  obtain ⟨s₁, hfront, hrest⟩ := Answers.append_iff.1 h
  obtain ⟨hclock, hhands⟩ := clock_of_answers hfront
  rw [List.length_append, List.length_singleton] at hclock hhands
  refine ⟨s₁, ?_, hclock, hhands, hrest⟩
  -- the reading is the last of these requests, and leaves the clock as it is
  obtain ⟨s₀, -, hlast⟩ := Answers.append_iff.1 hfront
  obtain ⟨hreply, hnil⟩ := hlast.uncons
  cases hnil
  exact hreply

/-- The later one of two readings is what the clock of the earlier one shows after the
steps that were made in between. -/
theorem readings_of_answers
    (h : Answers (handled firmware) s (es ++ ⟨.now, a⟩ :: (mid ++ ⟨.now, b⟩ :: fs)) s') :
    let clock := s.1.clock.advanceAll (s.2.take (es.length + 1)).flatten
    a = clock.now ∧
      b = (clock.advanceAll ((s.2.drop (es.length + 1)).take (mid.length + 1)).flatten).now := by
  obtain ⟨s₁, ha, hclock, hhands, hrest⟩ := reading_of_answers h
  obtain ⟨s₂, hb, hclock', -, -⟩ := reading_of_answers hrest
  rw [hclock] at ha
  rw [hclock', hclock, hhands] at hb
  exact ⟨ha, hb⟩

end World

/-! ## §4. The throttle. -/

open Clock TableReader

/-- What the throttle makes of the time between the stamp `a` of the last transfer and
its own reading `b` in the use `v`, of which `rest` is what follows.  The clock showed `a`
as `clock`, and was moved on by `steps` since. -/
structure Elapsed (c : Codename) (command : TransferCommand) (interval : Duration)
    (clock : Clock) (steps : List Duration) (a b : Duration) (v : TableUse)
    (rest : List Event) : Prop where
  stamp : a = clock.now
  reading : b = (clock.advanceAll steps).now
  /-- The difference of the two falls short of the steps by a turn for each fall. -/
  difference : b.nanos + falls (clock.shown steps) * turn = a.nanos + total steps
  /-- The reading is earlier than the stamp if and only if the steps do not make up for
  the turns. -/
  early : b < a ↔ total steps < falls (clock.shown steps) * turn
  /-- The command is issued if and only if the steps exceed the interval and all of the
  turns; without a fall, if and only if more than the interval has gone by. -/
  due : v.call.mailboxes.codename = c →
    (Issues command rest ↔ interval.nanos + falls (clock.shown steps) * turn < total steps)
  /-- At an earlier reading nothing is transferred, however long ago the last transfer
  was; asked for by itself, the throttle reports that none was due. -/
  held : b < a → ¬ Issues command rest ∧ (∀ e ∈ rest, e.request.isAccess = false) ∧
    stamp? v.events = none ∧
    (v.call.operation = .transferIfDue → v.outcome = .transferIfDue (.ok false))

section Throttle

variable {c : Codename} {command : TransferCommand} {interval : Duration} {clock : Clock}
  {steps : List Duration} {a b : Duration} {us : List TableUse} {t : TableReader} {v : TableUse}
  {front rest : List Event}

/-- At a reading that is earlier than the last stamp, the table is fresh. -/
theorem isFresh_of_early (h : History perform (fresh c interval) us t)
    (hlast : lastStamp us = some a) (hearly : b < a) : t.isFresh b = true := by
  rw [← Bool.not_eq_false, isFresh_of_history h, fallsDue_iff hlast]
  show ¬ interval.nanos < b.nanos - a.nanos
  rw [Nat.sub_eq_zero_of_le (Nat.le_of_lt hearly)]
  exact Nat.not_lt_zero _

/-- The throttle goes by the difference of two readings, whatever the clock did in
between. -/
theorem elapsed_of_history (h : History perform (fresh c interval) us t)
    (hv : v.From perform t) (hcommand : c.transferCommand? = some command)
    (hlast : lastStamp us = some a) (hthrottled : v.call.operation.isThrottled = true)
    (hsplit : v.events = front ++ ⟨.now, b⟩ :: rest) (hstamp : a = clock.now)
    (hreading : b = (clock.advanceAll steps).now) :
    Elapsed c command interval clock steps a b v rest := by
  have hmeets : v.Meets b rest := ⟨hthrottled, front, hsplit⟩
  have hdifference : b.nanos + falls (clock.shown steps) * turn = a.nanos + total steps := by
    rw [hstamp, hreading]
    exact clock.nanos_advanceAll steps
  refine ⟨hstamp, hreading, hdifference, ?_, ?_, ?_⟩
  · show b.nanos < a.nanos ↔ _
    omega
  · intro hcodename
    rw [issues_of_history h hv hcommand hmeets hcodename, fallsDue_iff hlast]
    show interval.nanos < b.nanos - a.nanos ↔ _
    omega
  · intro hearly
    have hfresh := isFresh_of_early h hlast hearly
    obtain ⟨hdecided, hstamped⟩ := decided_of_meets hv hmeets
    -- all that is left is mapping and copying
    have hhandling := hdecided.spared hfresh
    rw [(timeless_of_handling hhandling).untransferred] at hstamped
    refine ⟨not_issues_of_handling hhandling, isAccess_of_handling hhandling, hstamped, ?_⟩
    intro hoperation
    have hperformed := hv.performed
    rw [hoperation] at hperformed
    exact hperformed.spared hsplit hfresh

end Throttle

/-- The last reading of a clock and its falls make up for all that it was moved on by, so
its readings never fall if and only if it stays within a turn.  What a table makes of the
time since its last transfer follows the same law, however its uses and the steps of the
clock are interleaved. -/
theorem clock_goes_round {η : Type} (firmware : Firmware (η × Memory)) (w : World η)
    (hands : List (List Duration)) {c : Codename} {command : TransferCommand}
    (hcommand : c.transferCommand? = some command) (interval : Duration)
    (calls : List TableCall) :
    (∀ (clock : Clock) (steps : List Duration),
      (clock.advanceAll steps).now.nanos + falls (clock.shown steps) * turn =
          clock.now.nanos + total steps ∧
        ((clock.shown steps).Pairwise (· ≤ ·) ↔ clock.now.nanos + total steps < turn)) ∧
      ∀ before u mid v after,
        tableUses (World.handled firmware) (w, hands) c interval calls =
          before ++ u :: (mid ++ v :: after) →
        ∀ es a fs, u.events = es ++ ⟨.now, a⟩ :: fs → stamp? u.events = some a →
        (∀ x ∈ mid, stamp? x.events = none) → v.call.operation.isThrottled = true →
        ∀ front b rest, v.events = front ++ ⟨.now, b⟩ :: rest →
          let n := (journal before ++ es).length + 1
          let k := (fs ++ journal mid ++ front).length + 1
          Elapsed c command interval (w.clock.advanceAll (hands.take n).flatten)
            ((hands.drop n).take k).flatten a b v rest := by
  refine ⟨fun clock steps => ⟨clock.nanos_advanceAll steps, clock.shown_pairwise_iff steps⟩, ?_⟩
  intro before u mid v after hsplit es a fs hu ha hmid hthrottled front b rest hv n k
  obtain ⟨t', hall⟩ := history_tableUses (World.handled firmware) (w, hands) c interval calls
  obtain ⟨s', hanswers⟩ := answers_uses perform (World.handled firmware) calls
    (fresh c interval) (w, hands)
  change Answers _ _ (journal (tableUses _ _ c interval calls)) s' at hanswers
  rw [hsplit, journal_split hu hv] at hanswers
  obtain ⟨hstamp, hreading⟩ := World.readings_of_answers hanswers
  -- the table as `v` finds it
  rw [hsplit, ← List.cons_append, ← List.append_assoc] at hall
  obtain ⟨t, hbefore, hfrom, -⟩ := hall.split
  exact elapsed_of_history hbefore hfrom hcommand (lastStamp_of_last ha hmid) hthrottled hv
    hstamp hreading

namespace Overrun

open Unread (mailboxes firmware sound)

/-- The longest span that has a whole number of seconds in 64 bits. -/
def longest : Duration := .ofParts 0xFFFFFFFFFFFFFFFF 999999999

/-- What is done to the clock: it is moved on by a second before the first request, by the
longest step when the thirty-six requests of a transfer are done, and by two milliseconds
before the next request. -/
def hands : List (List Duration) :=
  [.ofSeconds 1] :: List.replicate 35 [] ++ [[longest], [.ofMillis 2]]

/-- A table that is to be transferred three times, at most once in a millisecond. -/
def row : List TableUse :=
  tableUses (World.handled firmware) (sound, hands) .matisse (.ofMillis 1)
    (List.replicate 3 ⟨mailboxes, .transferIfDue⟩)

/-- The longest step takes a clock that has gone for a second back by a nanosecond; then a
table that was transferred before it is not due. -/
theorem turned_back :
    Clock.shown {} [.ofSeconds 1, longest] = [⟨0⟩, .ofSeconds 1, ⟨999999999⟩] ∧
      ¬ (Clock.shown {} [.ofSeconds 1, longest]).Pairwise (· ≤ ·) ∧
      (row.take 2).map (fun u => readings u.events) = [[.ofSeconds 1], [⟨999999999⟩]] ∧
      (row.take 2).map (fun u => stamp? u.events) = [some (.ofSeconds 1), none] ∧
      (row.take 2).map Use.outcome = [.transferIfDue (.ok true), .transferIfDue (.ok false)] :=
  ⟨rfl, by decide, rfl, rfl, rfl⟩

/-- The second use is held up by the fall of the clock.  The third one is not: the steps
since the stamp exceed a turn by a nanosecond less than two milliseconds. -/
theorem clock_goes_round_row :
    ∃ first held later, row = [first, held, later] ∧
      (∃ rest, held.events = ⟨.now, ⟨999999999⟩⟩ :: rest ∧
        held.outcome = .transferIfDue (.ok false) ∧
        Elapsed .matisse ⟨0x05, 0⟩ (.ofMillis 1) ⟨1000000000⟩ [longest]
          (.ofSeconds 1) ⟨999999999⟩ held rest) ∧
      ∃ rest, later.events = ⟨.now, ⟨1001999999⟩⟩ :: rest ∧ Issues ⟨0x05, 0⟩ rest ∧
        Elapsed .matisse ⟨0x05, 0⟩ (.ofMillis 1) ⟨1000000000⟩ [longest, .ofMillis 2]
          (.ofSeconds 1) ⟨1001999999⟩ later rest := by
  have hcalls : row.map Use.call = List.replicate 3 ⟨mailboxes, .transferIfDue⟩ := rfl
  have hlengths : row.map (fun u => u.events.length) = [36, 1, 36] := rfl
  have hstamps : row.map (fun u => stamp? u.events) =
      [some (.ofSeconds 1), none, some ⟨1001999999⟩] := rfl
  have hheads : row.map (fun u => u.events.head?) =
      [some ⟨.now, .ofSeconds 1⟩, some ⟨.now, ⟨999999999⟩⟩, some ⟨.now, ⟨1001999999⟩⟩] := rfl
  obtain ⟨first, held, later, hrow⟩ : ∃ a b c, row = [a, b, c] := List.length_eq_three.1 rfl
  rw [hrow] at hcalls hlengths hstamps hheads
  simp only [List.map_cons, List.map_nil, List.replicate, List.cons.injEq, and_true,
    List.head?_eq_some_iff] at hcalls hlengths hstamps hheads
  obtain ⟨-, hheld, hlater⟩ := hcalls
  obtain ⟨⟨fs, hfirst⟩, ⟨gs, hsecond⟩, rest, hthird⟩ := hheads
  obtain ⟨hstamp, hnone, -⟩ := hstamps
  rw [hfirst, hsecond, List.length_cons, List.length_cons] at hlengths
  have hfs : fs.length = 35 := Nat.succ.inj hlengths.1
  have hgs : gs.length = 0 := Nat.succ.inj hlengths.2.1
  have hcommand : Codename.matisse.transferCommand? = some ⟨0x05, 0⟩ := rfl
  obtain ⟨-, hlaw⟩ := clock_goes_round firmware sound hands hcommand (.ofMillis 1)
    (List.replicate 3 ⟨mailboxes, .transferIfDue⟩)
  have hearlier := hlaw [] first [] held [later] hrow [] (.ofSeconds 1) fs hfirst hstamp
    (List.forall_mem_nil _) (by rw [hheld]; rfl) [] ⟨999999999⟩ gs hsecond
  have hpassed := hlaw [] first [held] later [] hrow [] (.ofSeconds 1) fs hfirst hstamp
    (List.forall_mem_singleton.2 hnone) (by rw [hlater]; rfl) [] ⟨1001999999⟩ rest hthird
  have hsteps : (fs ++ journal ([] : List TableUse) ++ []).length = 35 := by
    simp [journal, hfs]
  have hsteps' : (fs ++ journal [held] ++ []).length = 36 := by
    simp [journal, hfs, hsecond, hgs]
  rw [hsteps] at hearlier
  rw [hsteps'] at hpassed
  change Elapsed .matisse ⟨0x05, 0⟩ (.ofMillis 1) ⟨1000000000⟩ [longest] _ _ _ _ at hearlier
  change Elapsed .matisse ⟨0x05, 0⟩ (.ofMillis 1) ⟨1000000000⟩ [longest, .ofMillis 2] _ _ _ _
    at hpassed
  obtain ⟨-, -, -, houtcome⟩ := hearlier.held (by decide)
  exact ⟨first, held, later, hrow, ⟨gs, hsecond, houtcome (by rw [hheld]), hearlier⟩, rest,
    hthird, (hpassed.due (by rw [hlater]; rfl)).2 (by decide), hpassed⟩

end Overrun
end Simulation
end ManagementUnit
