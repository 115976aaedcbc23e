/-
  ManagementUnit.Proofs.Table.Delivery
  ────────────────────────────────
  What a read puts into the buffer.

  Between two uses of a table its regions show the memory that the geometry names:
  they did when they were mapped, and nobody but the table gives them back.  So what
  a read copies is what the memory holds, and it copies last, behind the transfer
  that may have been due.  Whether there is room for it is checked before any of
  that, against the one length that the table ever has.

  Main results:
    * `Prepared.short_iff`  — there is no room if and only if the buffer is shorter than
      the table.
    * `regional_shown`      — the regions of a table show the memory, whatever it is used
      for.
    * `TableMapping.copied` — a copy is the memory of the regions, one after the other.
    * `read_delivers`       — what comes of every read of a table that was not closed.
-/
import ManagementUnit.Proofs.Memory.Physical
import ManagementUnit.Proofs.Table.Mappings
import ManagementUnit.Proofs.Table.Permanence

namespace ManagementUnit

open Program (reaches_bind_iff reaches_done_iff)

/-! ## §1. Room. -/

namespace TableReader

variable {m : Mailboxes} {t t' : TableReader} {es : List Event} {room n : Nat}

/-- There is no room for a table if and only if the buffer is shorter. -/
theorem Prepared.short_iff {r : Except Failure (Geometry × TableMapping)} {g : Geometry}
    (h : Prepared m (some room) t es r t') (hopen : t.closed = false)
    (hg : t'.located? = some g) :
    r = .error (.shortBuffer n) ↔ n = g.totalLength ∧ room < g.totalLength := by
  cases h with
  | closed hclosed => cases hopen.symm.trans hclosed
  | unlocated _ h =>
    -- such a table does not know its geometry
    cases h with
    | failed hnone => cases hnone.symm.trans hg
  | @short _ g' _ _ _ h hroom hshort =>
    cases hroom
    cases h.located.symm.trans hg
    constructor
    · intro heq
      cases heq
      exact ⟨rfl, hshort⟩
    · rintro ⟨rfl, -⟩
      rfl
  | @renewed _ _ g' t₁ _ r _ h hroom hrenewed =>
    cases (hrenewed.unlocated.2.trans h.located).symm.trans hg
    have hfits : g.totalLength ≤ room := hroom room rfl
    refine iff_of_false ?_ ?_
    · intro heq
      cases r with
      | ok mapping => cases heq
      | error f =>
        cases heq
        exact hrenewed.ne_short n rfl
    · rintro ⟨-, hlt⟩
      exact Nat.not_lt.2 hfits hlt

theorem Copied.short_iff {buffer filled : Bytes} {r : Except Failure Nat} {g : Geometry}
    (h : Copied m buffer t es (r, filled) t') (hopen : t.closed = false)
    (hg : t'.located? = some g) :
    r = .error (.shortBuffer n) ↔ n = g.totalLength ∧ buffer.length < g.totalLength := by
  cases h with
  | failed h =>
    rw [← h.short_iff hopen hg]
    exact ⟨fun heq => by cases heq; rfl, fun heq => by cases heq; rfl⟩
  | copied h =>
    rw [← h.short_iff hopen hg]
    exact iff_of_false nofun nofun

theorem Prepared.unclosed_of_short {room? : Option Nat}
    (h : Prepared m room? t es (.error (.shortBuffer n)) t') : t.closed = false := by
  generalize hr : Except.error (Failure.shortBuffer n) = r at h
  cases h with
  | closed => cases hr
  | unlocated hopen | short hopen | renewed hopen => exact hopen

/-- No buffer that is long enough is ever refused as too short. -/
theorem Copied.lt_of_short {buffer filled : Bytes}
    (h : Copied m buffer t es (.error (.shortBuffer n), filled) t') : buffer.length < n := by
  cases h with
  | failed h =>
    obtain ⟨g, hg, rfl⟩ := h.reports.2 n rfl
    exact ((h.short_iff h.unclosed_of_short hg).1 rfl).2

end TableReader

/-! ## §2. What a table shows. -/

section Shown

variable {σ : Type} {memory : PhysicalMemory σ} {platform : Platform σ} {s s' : σ}

/-- What is mapped is shown. -/
theorem TableMapping.Established.shown (honours : memory.Honours platform)
    {g : Geometry} {es : List Event} {mapping : TableMapping} (h : Established g es (.ok mapping))
    (hs : memory.Orderly s) (hes : Answers platform s es s') :
    ∀ r ∈ mapping.regions, memory.Shows s' r.place r.extent := by
  cases h with
  | single p hg =>
    obtain ⟨hreply, hnil⟩ := hes.uncons
    cases hnil
    exact List.forall_mem_singleton.2 (honours.mapped s _ _ p hs hreply.symm)
  | @both p q x hg =>
    obtain ⟨hreply, hrest⟩ := hes.uncons
    obtain ⟨hreply', hnil⟩ := hrest.uncons
    cases hnil
    have hs' := honours.orderly (.map g.primary.base g.primary.length) s hs
    have hprimary := honours.mapped s _ _ p hs hreply.symm
    refine List.forall_mem_cons.2 ⟨?_, List.forall_mem_singleton.2 ?_⟩
    · exact honours.kept (.map x.base x.length) _ _ _ hs' hprimary nofun
    · exact honours.mapped _ _ _ q hs' hreply'.symm

namespace TableReader

/-- The regions of a table show the stretches of memory that they were mapped for. -/
def Shown (memory : PhysicalMemory σ) (t : TableReader) (s : σ) : Prop :=
  ∀ r ∈ t.regions, memory.Shows s r.place r.extent

theorem shown_of_unmapped {t : TableReader} (h : t.mapping? = none) : t.Shown memory s := by
  rw [Shown, regions, h]
  exact List.forall_mem_nil _

/-- The regions of a table show the memory, whatever it is used for. -/
theorem regional_shown (honours : memory.Honours platform) :
    Regional fun t es t' => ∀ s s', memory.Orderly s → Answers platform s es s' →
      t.Shown memory s → t'.Shown memory s' where
  append := by
    intro t t₁ t' es fs hes hfs s s' hs hanswers ht
    obtain ⟨mid, hfirst, hsecond⟩ := Answers.append_iff.1 hanswers
    exact hfs mid s' (honours.orderly_of_answers hfirst hs) hsecond (hes s mid hs hfirst ht)
  unmapping := by
    intro t t' es hunmapping hsame s s' hs hanswers ht
    rw [Shown, regions, hsame]
    intro r hr
    refine honours.shows_of_answers hanswers hs (ht r hr) ?_
    intro e he heq
    have hmapping := hunmapping e he
    rw [heq] at hmapping
    cases hmapping
  mapped := by
    intro g t t' es r h s s' hs hanswers ht
    cases h with
    | kept =>
      cases hanswers
      exact ht
    | established hnone hes => exact hes.shown honours hs hanswers
    | failed hnone => exact shown_of_unmapped hnone
  closed := by
    intro t t' es h s s' _ _ _
    refine shown_of_unmapped ?_
    rw [h.frame]

end TableReader

/-! ## §3. Copies. -/

/-- What the memory holds of a table. -/
def Geometry.contents (g : Geometry) (memory : PhysicalMemory σ) (s s' : σ) : Bytes :=
  memory.contents s g.primary ++ g.secondary?.elim [] (memory.contents s')

/-- Mapping and loading leave a table as the transfer left it. -/
theorem Geometry.contents_of_still (hstill : memory.Still platform) (g : Geometry)
    {s₁ s₂ s₃ : σ} {es fs : List Event} (hes : Answers platform s₁ es s₂)
    (hfs : Answers platform s₂ fs s₃) (hhandling : ∀ e ∈ es ++ fs, e.request.isHandling = true) :
    g.contents memory s₂ s₃ = g.contents memory s₁ s₁ := by
  obtain ⟨hmapping, hloading⟩ := List.forall_mem_append.1 hhandling
  rw [contents, contents, hstill.contents_eq hfs hloading, hstill.contents_eq hes hmapping]

/-- What copying a mapping can come to: a copy of each region, the second one behind what
the first one filled. -/
inductive TableMapping.Poured (mapping : TableMapping) (buffer : Bytes) :
    List Event → Bytes → Prop where
  | single {es : List Event} {filled : Bytes} (h : mapping.secondary? = none)
      (hes : (mapping.primary.copyInto buffer).Reaches es filled) : Poured mapping buffer es filled
  | both {r : Region} {fs gs : List Event} {front rest : Bytes} (h : mapping.secondary? = some r)
      (hfs : (mapping.primary.copyInto buffer).Reaches fs front)
      (hgs : (r.copyInto (front.drop (mapping.primary.reach buffer.length))).Reaches gs rest) :
      Poured mapping buffer (fs ++ gs) (front.take (mapping.primary.reach buffer.length) ++ rest)

theorem TableMapping.reaches_poured {mapping : TableMapping} {buffer filled : Bytes}
    {es : List Event} (h : (mapping.copyInto buffer).Reaches es filled) :
    Poured mapping buffer es filled := by
  rcases mapping with ⟨primary, secondary?⟩
  obtain ⟨fs, gs, front, rfl, hfront, hrest⟩ := reaches_bind_iff.1 h
  cases secondary? with
  | none =>
    obtain ⟨rfl, rfl⟩ := reaches_done_iff.1 hrest
    rw [List.append_nil]
    exact .single rfl hfront
  | some secondary =>
    obtain ⟨gs, ks, rest, rfl, hcopied, hdone⟩ := reaches_bind_iff.1 hrest
    obtain ⟨rfl, rfl⟩ := reaches_done_iff.1 hdone
    rw [List.append_nil]
    exact .both rfl hfront hcopied

/-- A copy is the memory of the regions, one after the other; what is behind that in the
buffer stays. -/
theorem TableMapping.copied (honours : memory.Honours platform) {g : Geometry}
    {mapping : TableMapping} (hextents : mapping.regions.map Region.extent = g.extents)
    {buffer filled : Bytes} {es : List Event} (hs : memory.Orderly s)
    (hshown : ∀ r ∈ mapping.regions, memory.Shows s r.place r.extent)
    (hroom : g.totalLength ≤ buffer.length) (h : (mapping.copyInto buffer).Reaches es filled)
    (hes : Answers platform s es s') :
    ∃ fs gs s₁, es = fs ++ gs ∧ Answers platform s fs s₁ ∧ Answers platform s₁ gs s' ∧
      filled = g.contents memory s s₁ ++ buffer.drop g.totalLength := by
  rcases g with ⟨first, second?, format⟩
  obtain ⟨hprimary, hsecondary⟩ := List.cons_eq_cons.1 hextents
  have hfirst : mapping.primary.length = first.length := congrArg Extent.length hprimary
  have hroom₁ : mapping.primary.length ≤ buffer.length := by
    rw [hfirst]
    exact Nat.le_trans (Nat.le_add_right _ _) hroom
  have hshown₁ := hshown mapping.primary List.mem_cons_self
  have hpoured := reaches_poured h
  cases hpoured with
  | single hnone hcopied =>
    obtain rfl := honours.copied hs hshown₁ hroom₁ hcopied hes
    refine ⟨es, [], s', (List.append_nil es).symm, hes, .nil s', ?_⟩
    rw [hnone] at hsecondary
    cases second? with
    | some x => cases hsecondary
    | none =>
      show _ = (memory.contents s first ++ []) ++ buffer.drop first.length
      rw [hprimary, hfirst, List.append_nil]
  | @both r fs gs front rest hsome hfs hgs =>
    obtain ⟨s₁, hanswers₁, hanswers₂⟩ := Answers.append_iff.1 hes
    obtain rfl := honours.copied hs hshown₁ hroom₁ hfs hanswers₁
    refine ⟨fs, gs, s₁, rfl, hanswers₁, hanswers₂, ?_⟩
    rw [hsome] at hsecondary
    cases second? with
    | none => cases hsecondary
    | some x =>
      have hx : r.extent = x := (List.cons_eq_cons.1 hsecondary).1
      have hsecond : r.length = x.length := congrArg Extent.length hx
      have htotal : first.length + x.length ≤ buffer.length := hroom
      -- the first copy leaves off where its region ends
      have hlength : (memory.contents s mapping.primary.extent).length = mapping.primary.length :=
        memory.length_contents s mapping.primary.extent
      rw [show mapping.primary.reach buffer.length = mapping.primary.length from
        Nat.min_eq_left hroom₁] at hgs ⊢
      rw [List.drop_left' hlength] at hgs
      rw [List.take_left' hlength]
      -- and gives nothing back, so the second region is still shown
      have hshown₂ : memory.Shows s₁ r.place r.extent := by
        refine honours.shows_of_answers hanswers₁ hs (hshown r (by simp [regions, hsome])) ?_
        intro e he heq
        obtain ⟨place, count, hload⟩ := reaches_copyInto h e (List.mem_append_left _ he)
        cases hload.symm.trans heq
      have hroom₂ : r.length ≤ (buffer.drop mapping.primary.length).length := by
        rw [List.length_drop]
        omega
      have hs₁ := honours.orderly_of_answers hanswers₁ hs
      obtain rfl := honours.copied hs₁ hshown₂ hroom₂ hgs hanswers₂
      show _ = (memory.contents s first ++ memory.contents s₁ x) ++
        buffer.drop (first.length + x.length)
      rw [hprimary, hx, List.drop_drop, hfirst, hsecond, List.append_assoc]

end Shown

/-! ## §4. Reads. -/

section Reads

open TableReader

variable {σ : Type}

/-- The read `u` of a new table, after the uses `before`, fills a buffer with the table
`g` as the memory holds it. -/
inductive Delivered (platform : Platform σ) (s : σ) (memory : PhysicalMemory σ) (c : Codename)
    (interval : Duration) (before : List TableUse) (u : TableUse) (g : Geometry)
    (buffer filled : Bytes) : Prop where
  | intro {lookup refresh mapping first second : List Event} {sent : Bool}
      {regions : TableMapping} {t t₁ t₂ : TableReader} {s₁ s₂ s₃ : σ}
      (hevents : u.events = lookup ++ refresh ++ mapping ++ (first ++ second))
      (hbefore : History perform (fresh c interval) before t)
      (hlookup : LookedUp u.call.mailboxes t lookup (.ok g) t₁)
      (hrefresh : Throttled u.call.mailboxes t₁ refresh (.ok sent) t₂)
      (hmapping : Mapped g t₂ mapping (.ok regions) u.after)
      (hloads : ∀ e ∈ first ++ second, ∃ place count, e.request = .load place count)
      -- the transfer is over in the state `s₁`, and the copies begin in `s₂` and `s₃`
      (hs₁ : Answers platform s (journal before ++ (lookup ++ refresh)) s₁)
      (hs₂ : Answers platform s₁ mapping s₂) (hs₃ : Answers platform s₂ first s₃)
      (hfilled : filled = g.contents memory s₂ s₃ ++ buffer.drop g.totalLength)
      (hstill : memory.Still platform →
        filled = g.contents memory s₁ s₁ ++ buffer.drop g.totalLength) :
      Delivered platform s memory c interval before u g buffer filled

/-- Where nothing but firmware writes to the memory, the buffer gets the table that was
there when the transfer was over. -/
theorem Delivered.of_still {platform : Platform σ} {s : σ} {memory : PhysicalMemory σ}
    {c : Codename} {interval : Duration} {before : List TableUse} {u : TableUse} {g : Geometry}
    {buffer filled : Bytes}
    (h : Delivered platform s memory c interval before u g buffer filled)
    (hstill : memory.Still platform) :
    ∃ es fs s₁, u.events = es ++ fs ∧ (∀ e ∈ fs, e.request.isHandling = true) ∧
      Answers platform s (journal before ++ es) s₁ ∧
      filled = g.contents memory s₁ s₁ ++ buffer.drop g.totalLength := by
  cases h with
  | @intro lookup refresh mapping first second _ _ _ _ _ s₁ _ _ hevents _ _ _ hmapping hloads
      hs₁ _ _ _ hsame =>
    refine ⟨lookup ++ refresh, mapping ++ (first ++ second), s₁, ?_, ?_, hs₁, hsame hstill⟩
    · rw [hevents, List.append_assoc (lookup ++ refresh)]
    · refine List.forall_mem_append.2 ⟨hmapping.handling, ?_⟩
      intro e he
      obtain ⟨place, count, hload⟩ := hloads e he
      rw [hload]
      rfl

/-- What comes of the read `u` of a buffer, with the uses before and after it, where `g`
is the geometry of the table: it was known before, or the read found it. -/
structure Delivers (platform : Platform σ) (s : σ) (c : Codename) (interval : Duration)
    (before : List TableUse) (u : TableUse) (after : List TableUse) (g : Geometry)
    (buffer : Bytes) : Prop where
  /-- There is no room for the table if and only if the buffer is shorter. -/
  short_iff : ∀ n, u.outcome.failure? = some (.shortBuffer n) ↔
    n = g.totalLength ∧ buffer.length < g.totalLength
  /-- A buffer as long as the table is never refused for that. -/
  retried : ∀ v ∈ after, ∀ longer, v.call.operation = .read longer →
    g.totalLength ≤ longer.length → ∀ n, v.outcome.failure? ≠ some (.shortBuffer n)
  /-- A read that succeeds fills the front of the buffer with the table. -/
  delivered : ∀ memory : PhysicalMemory σ, memory.Honours platform → memory.Orderly s →
    ∀ n filled, u.outcome = .read (.ok n) filled → n = g.totalLength ∧
      Delivered platform s memory c interval before u g buffer filled

variable {t : TableReader} {u : TableUse} {before after : List TableUse} {buffer filled : Bytes}
  {g : Geometry} {c : Codename} {interval : Duration} {n : Nat}

/-- A read is refused for want of room if and only if the buffer is shorter than the
table. -/
theorem Use.From.short_iff (hu : u.From perform t) (hread : u.call.operation = .read buffer)
    (hopen : t.closed = false) (hg : u.after.located? = some g) :
    u.outcome.failure? = some (.shortBuffer n) ↔
      n = g.totalLength ∧ buffer.length < g.totalLength := by
  obtain ⟨r, filled, houtcome, hcopied⟩ := hu.copied hread
  rw [houtcome, TableOutcome.failure?_read]
  exact hcopied.short_iff hopen hg

/-- After a read that was refused so, no buffer of the length that was told is. -/
theorem retried_of_history {t' : TableReader} (hafter : History perform u.after after t')
    (hg : u.after.located? = some g) :
    ∀ v ∈ after, ∀ longer, v.call.operation = .read longer →
      g.totalLength ≤ longer.length → ∀ n, v.outcome.failure? ≠ some (.shortBuffer n) := by
  have hall : ∀ v ∈ after, v.after.located? = some g ∧ ∃ t, v.From perform t := by
    refine (hafter.forall_uses (P := fun t => t.located? = some g) ?_ hg).2
    intro t v _ hv ht
    have hv' : v.after.located? = some g := by
      rw [hv.performed.located_eq, ht]
      rfl
    exact ⟨hv', hv', t, hv⟩
  intro v hv longer hread hroom n hshort
  obtain ⟨hknown, t, hfrom⟩ := hall v hv
  obtain ⟨r, filled, houtcome, hcopied⟩ := hfrom.copied hread
  rw [houtcome, TableOutcome.failure?_read] at hshort
  subst hshort
  obtain ⟨g', hg', rfl⟩ := hcopied.reports.2 n rfl
  cases hg'.symm.trans hknown
  exact Nat.not_lt.2 hroom hcopied.lt_of_short

/-- A read that succeeds fills the front of the buffer with the table. -/
theorem delivered_of_history {platform : Platform σ} {s s' : σ} {memory : PhysicalMemory σ}
    (honours : memory.Honours platform) (hs : memory.Orderly s)
    (hbefore : History perform (fresh c interval) before t) (hu : u.From perform t)
    (hanswers : Answers platform s (journal before ++ u.events) s')
    (hread : u.call.operation = .read buffer) (hopen : t.closed = false)
    (hg : u.after.located? = some g) (hok : u.outcome = .read (.ok n) filled) :
    n = g.totalLength ∧ Delivered platform s memory c interval before u g buffer filled := by
  obtain ⟨r, filled', houtcome, hcopied⟩ := hu.copied hread
  cases hok.symm.trans houtcome
  have hsound := sound_of_history (hbefore.concat hu)
  have hregional := regional_shown honours
  generalize hevents : u.events = es at hcopied hanswers
  generalize hafter : u.after = t' at hcopied hg hsound
  cases hcopied with
  | @copied es loads g' mapping filled t' hprepared hloads =>
    cases (hprepared.reports.1 _ _ rfl).symm.trans hg
    have hroom : g.totalLength ≤ buffer.length := by
      refine Nat.not_lt.1 fun hlt => ?_
      cases (hprepared.short_iff hopen hg).2 ⟨rfl, hlt⟩
    obtain ⟨lookup, _, t₁, rfl, hlookup, hrenewed⟩ := hprepared.ready
    cases hrenewed with
    | @mapped refresh mapped sent _ t₂ _ hrefresh hmap =>
      obtain ⟨g', hg', hextents⟩ := hsound.mapped mapping hmap.mapping_eq
      cases hg'.symm.trans hg
      simp only [List.append_assoc] at hanswers hevents
      -- the transfer is over after `refresh`, the mapping after `mapped`
      rw [← List.append_assoc lookup, ← List.append_assoc, Answers.append_iff] at hanswers
      obtain ⟨s₁, hs₁, hanswers⟩ := hanswers
      obtain ⟨s₂, hs₂, hanswers⟩ := Answers.append_iff.1 hanswers
      have hreached := Answers.append_iff.2 ⟨s₁, hs₁, hs₂⟩
      have horderly : memory.Orderly s₂ := honours.orderly_of_answers hreached hs
      -- a new table shows nothing yet, and from there on what it maps is shown
      have hcourse := hregional.append (hregional.append (regional_of_history hbefore hregional)
        (hregional.append (hlookup.regional hregional) (hrefresh.regional hregional)))
        (hregional.mapped hmap)
      have hshown : t'.Shown memory s₂ := hcourse s s₂ hs hreached (shown_of_unmapped rfl)
      rw [Shown, regions, hmap.mapping_eq] at hshown
      obtain ⟨first, second, s₃, rfl, hs₃, -, hfilled⟩ :=
        TableMapping.copied honours hextents horderly hshown hroom hloads hanswers
      have hcopying := TableMapping.reaches_copyInto hloads
      refine ⟨rfl, ?_⟩
      refine .intro ?_ hbefore hlookup hrefresh (hafter ▸ hmap) hcopying hs₁ hs₂ hs₃ hfilled ?_
      · rw [hevents, List.append_assoc, List.append_assoc]
      · intro hstill
        have hloading := List.forall_mem_append.1 (TableMapping.handling_of_copyInto hloads)
        rw [hfilled, g.contents_of_still hstill hs₂ hs₃
          (List.forall_mem_append.2 ⟨hmap.handling, hloading.1⟩)]

/-- On any platform that keeps its promises, every read of a table that was not closed
delivers the table, or is refused for want of room if and only if there is none. -/
theorem read_delivers (platform : Platform σ) (s : σ) (c : Codename) (interval : Duration)
    (calls : List TableCall)
    (hsplit : tableUses platform s c interval calls = before ++ u :: after)
    (hread : u.call.operation = .read buffer)
    (hopen : ∀ v ∈ before, v.call.operation.isClose = false)
    (hg : u.after.located? = some g) :
    Delivers platform s c interval before u after g buffer := by
  obtain ⟨t', hall⟩ := history_tableUses platform s c interval calls
  obtain ⟨s', hanswers⟩ := answers_uses perform platform calls (fresh c interval) s
  change Answers platform s (journal (tableUses platform s c interval calls)) s' at hanswers
  rw [hsplit] at hall hanswers
  obtain ⟨t, hbefore, hu, hafter⟩ := hall.split
  have hunclosed := unclosed_of_history hbefore hopen
  refine ⟨fun n => hu.short_iff hread hunclosed hg, retried_of_history hafter hg, ?_⟩
  intro memory honours hs n filled hok
  rw [journal_append, show journal (u :: after) = u.events ++ journal after from rfl,
    ← List.append_assoc, Answers.append_iff] at hanswers
  obtain ⟨mid, hmid, -⟩ := hanswers
  exact delivered_of_history honours hs hbefore hu hmid hread hunclosed hg hok

end Reads

namespace Stocked

open Simulation (World Firmware Memory)
open TableReader

/-- Where the table lies that the firmware tells of. -/
def geometry : Geometry := ⟨⟨.ofHalves 0xDF100000 0, 0x514⟩, none, 0x00240902⟩

/-- Firmware that writes a table where it says that the table lies. -/
def firmware : Firmware (Unit × Memory) := fun command opcode words s =>
  if opcode = 0x05 then
    (some ⟨ResponseCode.ok, words⟩, s.1, s.2.store 0xDF100000 (List.replicate 0x514 0xAB))
  else Unread.firmware command opcode words s

/-- A machine that has memory there. -/
def world : World Unit :=
  { Unread.sound with memory := ({} : Memory).addBlock 0xDF100000 0x514 }

/-- A table that is asked where it lies, read into a buffer that is a byte too short, and
into one that is longer than the table. -/
def row : List TableUse :=
  tableUses (World.platform firmware) world .matisse (.ofSeconds 1)
    ([.geometry, .read (List.replicate 0x513 0), .read (List.replicate 0x600 0x5A)].map
      (⟨Unread.mailboxes, ·⟩))

theorem firmware_keepsBlocks : World.KeepsBlocks firmware := by
  intro command opcode words s
  unfold firmware
  split
  · exact s.2.spans_store _ _
  · rfl

/-- The length that the first read reports is the length that the second one finds room
for; the rest of the longer buffer stays. -/
theorem read_delivers_row :
    ∃ located short long filled es fs w, row = [located, short, long] ∧
      short.outcome.failure? = some (.shortBuffer 0x514) ∧
      long.outcome = .read (.ok 0x514) filled ∧ long.events = es ++ fs ∧
      Answers (World.platform firmware) world (journal [located, short] ++ es) w ∧
      filled = (World.physical Unit).contents w geometry.primary ++ List.replicate 0xEC 0x5A := by
  have hcalls : row.map Use.call = _ := map_call_uses (World.platform firmware) _ _ _
  have hlocated : row.map (fun u => u.after.located?) =
      [some geometry, some geometry, some geometry] := by
    decide +kernel
  have hreads : row.map (fun u => u.outcome.read?) =
      [none, some (.error (.shortBuffer 0x514)), some (.ok 0x514)] := by
    decide +kernel
  obtain ⟨located, short, long, hrow⟩ : ∃ a b c, row = [a, b, c] := by
    refine List.length_eq_three.1 ?_
    rw [← List.length_map, hreads]
    rfl
  rw [hrow] at hcalls hlocated hreads
  simp only [List.map_cons, List.map_nil, List.cons.injEq, and_true] at hcalls hlocated hreads
  obtain ⟨hcall₀, hcall₁, hcall₂⟩ := hcalls
  have hopen₀ : located.call.operation.isClose = false := by rw [hcall₀]; rfl
  have hopen₁ : short.call.operation.isClose = false := by rw [hcall₁]; rfl
  have hsplit₁ : row = [located] ++ short :: [long] := hrow
  have hsplit₂ : row = [located, short] ++ long :: [] := hrow
  have hshort := read_delivers (World.platform firmware) world .matisse (.ofSeconds 1) _ hsplit₁
    (congrArg TableCall.operation hcall₁) (List.forall_mem_singleton.2 hopen₀) hlocated.2.1
  have hlong := read_delivers (World.platform firmware) world .matisse (.ofSeconds 1) _ hsplit₂
    (congrArg TableCall.operation hcall₂)
    (List.forall_mem_cons.2 ⟨hopen₀, List.forall_mem_singleton.2 hopen₁⟩) hlocated.2.2
  obtain ⟨filled, houtcome⟩ := TableOutcome.read?_eq_some_iff.1 hreads.2.2
  obtain ⟨-, hdelivered⟩ := hlong.delivered (World.physical Unit)
    (World.honours firmware_keepsBlocks) (List.pairwise_singleton _ _) 0x514 filled houtcome
  have hroom : (List.replicate 0x513 (0 : UInt8)).length < geometry.totalLength := by
    rw [List.length_replicate]
    decide
  obtain ⟨es, fs, w, hevents, -, hanswers, hfilled⟩ :=
    hdelivered.of_still (World.still firmware)
  refine ⟨located, short, long, filled, es, fs, w, hrow,
    (hshort.short_iff 0x514).2 ⟨rfl, hroom⟩, houtcome, hevents, hanswers, ?_⟩
  rw [hfilled, List.drop_replicate, Geometry.contents]
  simp [geometry, Geometry.totalLength]

end Stocked
end ManagementUnit
