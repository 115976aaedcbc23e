/-
  ManagementUnit.Proofs.Driver.Format
  ────────────────────────────────
  Where the format comes from that the capabilities tell.

  A search that comes through to a length which goes by the format has asked for the
  format twice: once for the capabilities, and once to measure the table.  The length
  and the geometry go by the second answer, the format in the capabilities by the
  first, where zero stands for none.  So the two describe the same table if the
  firmware told the same twice, and only then.

  Main results:
    * `format_told`     — which format the capabilities tell of the table of a driver.
    * `formats_differ`  — firmware that changes its mind leaves them at odds.
-/
import ManagementUnit.Proofs.Driver.Search
import ManagementUnit.Simulation.World

namespace ManagementUnit

/-- No length goes by a format of zero. -/
theorem Codename.format_ne_zero {c : Codename} {lengths : List (UInt32 × Nat)}
    (hl : c.layout? = some (.versioned lengths)) {format : UInt32} {n : Nat}
    (h : c.tableLength? format = some n) : format ≠ 0 := by
  rintro rfl
  have hzero : c.tableLength? 0 = none := by
    cases c <;> first | rfl | cases hl
  cases hzero.symm.trans h

/-- The firmware told the format `first` for the capabilities and the format `last` for the
table, of length `n`, when the driver was started. -/
structure Driver.Told (d : Driver) (n : Nat) (first last : UInt32) : Prop where
  /-- The table goes by the last one. -/
  located : ∃ g, d.table.located? = some g ∧ g.format = last ∧ g.totalLength = n
  length : d.processor.codename.tableLength? last = some n
  /-- The capabilities go by the first one. -/
  format : d.capabilities.tableFormat? = if first = 0 then none else some first
  /-- They tell the format of the table, and of its length, if both are the same. -/
  agrees : (∃ v, d.capabilities.tableFormat? = some v ∧
      d.processor.codename.tableLength? v = some n ∧
      d.table.located?.map Geometry.format = some v) ↔ first = last

/-- A search that comes through to a length has asked for the format twice. -/
theorem Capabilities.Detected.told {m : Mailboxes} {interval : Duration} {es : List Event}
    {capabilities : Capabilities} {t : TableReader}
    (h : Capabilities.Detected m (.fresh m.codename interval) es capabilities t)
    {lengths : List (UInt32 × Nat)} (hl : m.codename.layout? = some (.versioned lengths)) {n : Nat}
    (hn : capabilities.tableLength? = some n) :
    ∃ xs first g, Conversation m es xs ∧ formatsTold m.codename xs = [first, g.format] ∧
      t.located? = some g ∧ g.totalLength = n ∧ m.codename.tableLength? g.format = some n ∧
      capabilities.tableFormat? = if first = 0 then none else some first := by
  cases h with
  | silent | untransferred | unformatted | unprepared => cases hn
  | @found es fs gs hs v format g _ _ _ hversion htransfer hformat hprepared =>
    cases hn
    obtain ⟨x, hx⟩ := htransfer.transferMessage?
    obtain ⟨xs, hprelude⟩ := prelude_of_formatted hx hversion htransfer hformat
    obtain ⟨ys, hys, hready, hlength, htold, -⟩ := hprelude.found hprepared
    have hnote : Conversation m [⟨.note (.tableReadable g.totalLength), ()⟩] [] := .aside rfl .nil
    have hall := (hprelude.conversation.append hys).followed hnote
    simp only [List.append_assoc] at hall
    exact ⟨xs ++ ys, format, g, hall, htold lengths hl, hready.located, rfl, hlength, rfl⟩

/-- Where the length goes by the format, starting a driver that tells a length has asked for
the format just twice, and the capabilities describe the table by the first answer, its
length by the second. -/
theorem format_told {σ : Type} (platform : Platform σ) (s : σ) (settings : Settings) {d : Driver}
    (hstart : ((Driver.start settings).run.run platform s).1 = .ok d)
    {lengths : List (UInt32 × Nat)}
    (hl : d.processor.codename.layout? = some (.versioned lengths)) {n : Nat}
    (hn : d.capabilities.tableLength? = some n) :
    ∃ xs first last,
      Conversation d.mailboxes ((Driver.start settings).run.journal platform s) xs ∧
        formatsTold d.processor.codename xs = [first, last] ∧ d.Told n first last := by
  have hreach := Program.reaches_journal platform (Driver.start settings).run s
  rw [hstart] at hreach
  generalize (Driver.start settings).run.journal platform s = es at hreach ⊢
  cases reaches_start hreach with
  | @started _ _ _ p _ _ _ _ hquery _ hversion hdetected =>
    obtain ⟨xs, first, g, hxs, htold, hg, hlast, hlength, hformat⟩ :=
      Capabilities.Detected.told hdetected hl hn
    obtain ⟨words, hall⟩ := conversation_of_started hquery hversion hxs
    refine ⟨_, first, g.format, hall, ?_, ⟨g, hg, rfl, hlast⟩, hlength, hformat, ?_⟩
    · -- the first exchange is with the other mailbox
      have hother : Exchange.format? p.codename
          ⟨.version .mp1, .ok words⟩ = none := by
        refine if_neg fun hmessage => ?_
        cases (Codename.formatMessage?_spec hmessage).1
      exact (List.filterMap_cons_none hother).trans htold
    · rw [hformat, hg]
      constructor
      · rintro ⟨v, hv, -, hsame⟩
        split at hv
        · cases hv
        · exact (Option.some.inj hv).trans (Option.some.inj hsame).symm
      · rintro rfl
        rw [if_neg (Codename.format_ne_zero hl hlength)]
        exact ⟨_, rfl, hlength, rfl⟩

namespace Unsettled

open Simulation

/-- Firmware that tells another format from the second time on. -/
def firmware : Firmware (Bool × Memory) := fun _ opcode _ (asked, memory) =>
  match opcode with
  | 0x02 => (some ⟨ResponseCode.ok, .first 0x002E3D00⟩, asked, memory)
  | 0x05 => (some ⟨ResponseCode.ok, .zero⟩, asked, memory)
  | 0x06 => (some ⟨ResponseCode.ok, .pair 0xDF100000 0⟩, asked, memory)
  | 0x08 =>
    (some ⟨ResponseCode.ok, .first (if asked then 0x00240903 else 0x00240902)⟩, true, memory)
  | _ => (none, asked, memory)

/-- A machine on which all else goes well. -/
def machine : World Bool where
  signature := .encode 0x17 0x71 0 2
  chip := ({} : Chip).attachAll .matisse
  firmware := false
  memory := ({} : Memory).addBlock 0xDF100000 0x518

/-- What comes of starting the driver on it. -/
def started : Except Failure Driver :=
  ((Driver.start .standard).run.run (World.platform firmware) machine).1

/-- The driver starts, and tells of a table. -/
theorem exists_started : ∃ d, started = .ok d ∧ d.processor.codename = .matisse ∧
    d.capabilities = ⟨true, some 0x518, some 0x00240902⟩ ∧
    d.table.located?.map Geometry.format = some 0x00240903 := by
  have hstarted : started.toOption.map (fun d =>
        (d.processor.codename, d.capabilities, d.table.located?.map Geometry.format)) =
      some (.matisse, ⟨true, some 0x518, some 0x00240902⟩, some 0x00240903) := by
    decide +kernel
  cases h : started with
  | error f =>
    rw [h] at hstarted
    cases hstarted
  | ok d =>
    rw [h] at hstarted
    simp only [Except.toOption, Option.map_some, Option.some.injEq, Prod.mk.injEq] at hstarted
    exact ⟨d, rfl, hstarted⟩

/-- The firmware told two formats, each of which is told on. -/
theorem format_told_unsettled : ∃ d, started = .ok d ∧
    (∃ lengths, d.processor.codename.layout? = some (.versioned lengths)) ∧
    d.capabilities.tableLength? = some 0x518 ∧
    ∃ xs, Conversation d.mailboxes
        ((Driver.start .standard).run.journal (World.platform firmware) machine) xs ∧
      formatsTold d.processor.codename xs = [0x00240902, 0x00240903] ∧
      d.Told 0x518 0x00240902 0x00240903 := by
  obtain ⟨d, hstarted, hcodename, hcapabilities, hgeometry⟩ := exists_started
  have hlayout : ∃ lengths, d.processor.codename.layout? = some (.versioned lengths) := by
    rw [hcodename]
    exact ⟨_, rfl⟩
  have hlength : d.capabilities.tableLength? = some 0x518 := by rw [hcapabilities]
  obtain ⟨lengths, hl⟩ := hlayout
  obtain ⟨xs, first, last, hxs, htold, hd⟩ :=
    format_told (World.platform firmware) machine .standard hstarted hl hlength
  -- which two they were is seen by the capabilities and by the table
  have hfirst : first = 0x00240902 := by
    have hformat := hd.format
    rw [hcapabilities] at hformat
    split at hformat
    · cases hformat
    · exact (Option.some.inj hformat).symm
  have hlast : last = 0x00240903 := by
    obtain ⟨g, hg, rfl, -⟩ := hd.located
    rw [hg] at hgeometry
    exact Option.some.inj hgeometry
  subst hfirst hlast
  exact ⟨d, hstarted, ⟨lengths, hl⟩, hlength, xs, hxs, htold, hd⟩

/-- The capabilities tell a format of another length than the one that they tell, and the
table is of that other format. -/
theorem formats_differ : ∃ d, started = .ok d ∧
    (∃ lengths, d.processor.codename.layout? = some (.versioned lengths)) ∧
    d.capabilities.tableLength? = some 0x518 ∧ d.capabilities.tableFormat? = some 0x00240902 ∧
    d.processor.codename.tableLength? 0x00240902 = some 0x514 ∧
    d.table.located?.map Geometry.format = some 0x00240903 := by
  obtain ⟨d, hstarted, hcodename, hcapabilities, hgeometry⟩ := exists_started
  refine ⟨d, hstarted, ?_⟩
  rw [hcodename, hcapabilities]
  exact ⟨⟨_, rfl⟩, rfl, rfl, rfl, hgeometry⟩

end Unsettled
end ManagementUnit
