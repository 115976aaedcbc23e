/-
  ManagementUnit.Proofs.Memory.Coherence
  ────────────────────────────────
  Simulated memory as a byte at each address.

  Regions are added, bytes written, ranges mapped and given back, and mapping is
  switched off and on again, in any order.  What has happened is written down, and
  three things can be read off such a log: where the regions are (`regions`), whether
  mapping is refused (`isRefusing`), and which byte was written last at an address
  (`lastWritten`).  Nothing else about a memory matters to those who use it.

  `Tells log m` says that the log tells all this of the memory; one call keeps it
  (`Tells.meet`), and so do calls in a row (`Tells.meetAll`).  A mapping is a place in
  a block and not a copy of it, so through whichever mapping a byte is looked at, it is
  the one that the log tells.

  Main results:
    * `byte_write`      — a write changes the bytes that it writes, and no other.
    * `Tells.meetAll`   — after any calls, the log tells what the memory is.
    * `memory_coherent` — which ranges can be mapped, and what a copy shows.
-/
import ManagementUnit.Proofs.Memory.Physical
import ManagementUnit.Proofs.Simulation.Words

namespace ManagementUnit.Simulation

/-! ## §1. Ranges. -/

/-- A range lies inside a span. -/
def Within (a : UInt64 × Nat) (base : UInt64) (length : Nat) : Prop :=
  a.1.toNat ≤ base.toNat ∧ base.toNat + length ≤ a.1.toNat + a.2

namespace Memory

variable {m m' : Memory}

/-- A range has a place exactly if it lies inside one of the blocks. -/
theorem exists_locateFrom_iff {blocks : List Block} {i : Nat} {address : UInt64} {length : Nat} :
    (∃ place, locateFrom i blocks address length = some place) ↔
      ∃ a ∈ blocks.map Block.span, Within a address length := by
  induction blocks generalizing i with
  | nil => simp [locateFrom]
  | cons b rest ih =>
    have hhere : (∃ offset, b.offset? address length = some offset) ↔
        Within b.span address length := by
      simp only [Block.offset?_eq_some_iff, Within, Block.span]
      constructor
      · rintro ⟨offset, hbase, hlength⟩
        omega
      · rintro ⟨hle, hlength⟩
        exact ⟨address.toNat - b.base.toNat, by omega⟩
    simp only [List.map_cons, List.exists_mem_cons_iff, ← hhere, ← ih (i := i + 1), locateFrom]
    cases hoffset : b.offset? address length with
    | some offset => simp
    | none => simp

/-- A range can be mapped exactly if mapping is not refused and the range lies inside one
block; if it cannot, the error names it. -/
theorem map_iff (m : Memory) (base : PhysicalAddress) (length : Nat) :
    ((∃ place, (m.map base length).1 = .ok place) ↔
      m.refusing = false ∧ ∃ a ∈ m.spans, Within a base.value length) ∧
    ∀ e, (m.map base length).1 = .error e → e = ⟨base, length⟩ := by
  have hlocate : (∃ place, m.locate? base.value length = some place) ↔
      ∃ a ∈ m.spans, Within a base.value length := exists_locateFrom_iff
  rw [← hlocate]
  unfold map
  dsimp only
  cases m.refusing with
  | true =>
    refine ⟨by simp, fun e he => ?_⟩
    cases he
    rfl
  | false =>
    cases m.locate? base.value length with
    | some place => exact ⟨by simp, nofun⟩
    | none =>
      refine ⟨by simp, fun e he => ?_⟩
      cases he
      rfl

/-- Bytes can be written exactly if there is a block for all of them. -/
theorem write_iff (m : Memory) (address : UInt64) (data : Bytes) :
    (∃ m', m.write address data = .ok m') ↔ ∃ a ∈ m.spans, Within a address data.length := by
  have hlocate : (∃ place, m.locate? address data.length = some place) ↔
      ∃ a ∈ m.spans, Within a address data.length := exists_locateFrom_iff
  rw [← hlocate]
  unfold write
  cases m.locate? address data.length with
  | some place => simp
  | none => simp

/-! ## §2. The bytes of a memory. -/

/-- Where no block is, the byte is zero. -/
theorem byte_of_uncovered {address : Nat} (h : ∀ a ∈ m.spans, ¬ Covers a address) :
    m.byte address = 0 := by
  have hnone : m.blocks.find? (·.covers address) = none := by
    refine List.find?_eq_none.2 fun b hb hcovers => ?_
    exact h b.span (List.mem_map_of_mem hb) (Block.covers_iff.1 hcovers)
  rw [byte, hnone]

/-- In blocks that do not overlap, an address lies in one of them only. -/
theorem index_of_covers (hm : m.spans.Pairwise Separate) {i j : Nat} {b c : Block}
    (hb : m.blocks[i]? = some b) (hc : m.blocks[j]? = some c) {address : Nat}
    (hbcovers : Covers b.span address) (hccovers : Covers c.span address) : i = j := by
  obtain ⟨hi, rfl⟩ := List.getElem?_eq_some_iff.1 hb
  obtain ⟨hj, rfl⟩ := List.getElem?_eq_some_iff.1 hc
  rw [spans, List.pairwise_map, List.pairwise_iff_getElem] at hm
  rcases Nat.lt_trichotomy i j with hlt | heq | hlt
  · exact absurd hccovers (hm i j hi hj hlt address hbcovers)
  · exact heq
  · exact absurd hbcovers (hm j i hj hi hlt address hccovers)

/-- What a write puts at an address. -/
def putAt? (base : UInt64) (data : Bytes) (address : Nat) : Option UInt8 :=
  if base.toNat ≤ address then data[address - base.toNat]? else none

/-- A write inside a block puts nothing outside of it. -/
theorem putAt?_eq_none {b : Block} {base : UInt64} {offset : Nat} {data : Bytes}
    (hbase : b.base.toNat + offset = base.toNat) (hroom : offset + data.length ≤ b.bytes.length)
    {address : Nat} (h : ¬ Covers b.span address) : putAt? base data address = none := by
  unfold putAt?
  split
  · next hlow =>
    refine List.getElem?_eq_none (Nat.le_of_not_lt fun hhigh => h ⟨?_, ?_⟩)
    · show b.base.toNat ≤ address
      omega
    · show address < b.base.toNat + b.bytes.length
      omega
  · rfl

/-- Bytes that are put inside a block are there, and the others stay. -/
theorem getD_put {b : Block} {base : UInt64} {offset : Nat} {data : Bytes}
    (hbase : b.base.toNat + offset = base.toNat) (hroom : offset + data.length ≤ b.bytes.length)
    {address : Nat} (haddress : b.base.toNat ≤ address) :
    (b.put offset data).bytes.getD (address - b.base.toNat) 0 =
      (putAt? base data address).getD (b.bytes.getD (address - b.base.toNat) 0) := by
  have htake : (b.bytes.take offset).length = offset := List.length_take_of_le (by omega)
  simp only [Block.put, Bytes.overlay, List.getD_eq_getElem?_getD]
  by_cases hlow : base.toNat ≤ address
  · have hindex : address - b.base.toNat - offset = address - base.toNat := by omega
    rw [List.getElem?_append_right (by omega), htake, hindex, putAt?, if_pos hlow]
    by_cases hhigh : address - base.toNat < data.length
    · rw [List.getElem?_append_left hhigh, List.getElem?_eq_getElem hhigh]
      rfl
    · have hpast : data[address - base.toNat]? = none := List.getElem?_eq_none (by omega)
      have hback : offset + (data.length + (address - base.toNat - data.length)) =
          address - b.base.toNat := by omega
      rw [List.getElem?_append_right (by omega), List.getElem?_drop, List.getElem?_drop, hback,
        hpast]
      rfl
  · rw [List.getElem?_append_left (by omega), List.getElem?_take_of_lt (by omega), putAt?,
      if_neg hlow]
    rfl

/-- A write changes the bytes that it writes, and no other. -/
theorem byte_write (hm : m.spans.Pairwise Separate) {base : UInt64} {data : Bytes}
    (h : m.write base data = .ok m') (address : Nat) :
    m'.byte address = (putAt? base data address).getD (m.byte address) := by
  have hspans := spans_write h
  obtain ⟨k, b, offset, hb, hbase, hroom, rfl⟩ := write_spec h
  by_cases hcovered : ∃ (j : Nat) (c : Block), m.blocks[j]? = some c ∧ Covers c.span address
  · obtain ⟨j, c, hc, hcovers⟩ := hcovered
    have hafter : (m.blocks.modify k fun b => b.put offset data)[j]? =
        some (if k = j then c.put offset data else c) := by
      rw [List.getElem?_modify, hc]
      split <;> rfl
    rw [byte_of_covers hm hc (Block.covers_iff.2 hcovers)]
    by_cases hkj : k = j
    · subst hkj
      cases hb.symm.trans hc
      rw [if_pos rfl] at hafter
      have hcovers' : Covers (b.put offset data).span address := span_put hroom ▸ hcovers
      rw [byte_of_covers (hspans ▸ hm) hafter (Block.covers_iff.2 hcovers')]
      exact getD_put hbase hroom hcovers.1
    · rw [if_neg hkj] at hafter
      have hnothing : putAt? base data address = none :=
        putAt?_eq_none hbase hroom fun hput => hkj (index_of_covers hm hb hc hput hcovers)
      rw [byte_of_covers (hspans ▸ hm) hafter (Block.covers_iff.2 hcovers), hnothing]
      rfl
  · have hnone : ∀ a ∈ m.spans, ¬ Covers a address := by
      intro a ha hcovers
      obtain ⟨c, hmem, rfl⟩ := List.mem_map.1 ha
      obtain ⟨j, hj⟩ := List.mem_iff_getElem?.1 hmem
      exact hcovered ⟨j, c, hj, hcovers⟩
    have hnothing : putAt? base data address = none :=
      putAt?_eq_none hbase hroom fun hput => hcovered ⟨k, b, hb, hput⟩
    rw [byte_of_uncovered hnone, byte_of_uncovered (hspans ▸ hnone), hnothing]
    rfl

/-- A new block holds zeros. -/
theorem byte_addBlock (m : Memory) (base : UInt64) (length : Nat) :
    (m.addBlock base length).byte = m.byte := by
  funext address
  simp only [byte, addBlock, List.find?_append]
  cases m.blocks.find? (·.covers address) with
  | some b => rfl
  | none =>
    rw [Option.none_or, List.find?_singleton]
    cases Block.covers ⟨base, List.replicate length 0⟩ address with
    | true =>
      show (List.replicate length 0).getD (address - base.toNat) 0 = 0
      rw [List.getD_eq_getElem?_getD, List.getElem?_replicate]
      split <;> rfl
    | false => rfl

/-! ## §3. What happens to a memory. -/

/-- What can be asked of a memory. -/
inductive Call where
  | add (base : UInt64) (length : Nat)
  | write (address : UInt64) (data : Bytes)
  | map (base : PhysicalAddress) (length : Nat)
  | unmap (place : Place) (length : Nat)
  /-- From now on mapping is refused, or is not. -/
  | refuse (on : Bool)

/-- A call, and what came of it. -/
inductive Entry where
  | added (base : UInt64) (length : Nat)
  /-- Bytes were written, or there was no block for them. -/
  | written (address : UInt64) (data : Bytes) (done : Bool)
  | mapped (base : PhysicalAddress) (length : Nat) (outcome : Except MapError Place)
  | unmapped (place : Place) (length : Nat)
  | refused (on : Bool)

/-- What a call comes to. -/
def meet (m : Memory) : Call → Entry × Memory
  | .add base length => (.added base length, m.addBlock base length)
  | .write address data =>
    match m.write address data with
    | .ok stored => (.written address data true, stored)
    | .error _ => (.written address data false, m)
  | .map base length => (.mapped base length (m.map base length).1, (m.map base length).2)
  | .unmap place length => (.unmapped place length, m.unmap place length)
  | .refuse on => (.refused on, { m with refusing := on })

namespace Entry

/-- The region that was added. -/
def region? : Entry → Option (UInt64 × Nat)
  | added base length => some (base, length)
  | written .. | mapped .. | unmapped .. | refused _ => none

/-- Whether mapping was switched off or on. -/
def refused? : Entry → Option Bool
  | refused on => some on
  | added .. | written .. | mapped .. | unmapped .. => none

/-- The byte that was written at an address. -/
def writtenAt? (address : Nat) : Entry → Option UInt8
  | written base data true => putAt? base data address
  | written _ _ false | added .. | mapped .. | unmapped .. | refused _ => none

end Entry

/-- The regions that were added, in order. -/
def regions (log : List Entry) : List (UInt64 × Nat) := log.filterMap Entry.region?

/-- Whether mapping is refused: what the last switch said. -/
def isRefusing (log : List Entry) : Bool := (latest? Entry.refused? log).getD false

/-- The byte that was written last at an address; zero if none was. -/
def lastWritten (log : List Entry) (address : Nat) : UInt8 :=
  (latest? (Entry.writtenAt? address) log).getD 0

theorem regions_concat (log : List Entry) (e : Entry) :
    regions (log ++ [e]) = regions log ++ e.region?.toList :=
  filterMap_concat ..

theorem isRefusing_concat (log : List Entry) (e : Entry) :
    isRefusing (log ++ [e]) = e.refused?.getD (isRefusing log) := by
  rw [isRefusing, latest?_concat, Option.getD_or, isRefusing]

theorem lastWritten_concat (log : List Entry) (e : Entry) (address : Nat) :
    lastWritten (log ++ [e]) address = (e.writtenAt? address).getD (lastWritten log address) := by
  rw [lastWritten, latest?_concat, Option.getD_or, lastWritten]

/-- What a call changes, told by its entry. -/
structure Changes (m : Memory) (e : Entry) (m' : Memory) : Prop where
  spans : m'.spans = m.spans ++ e.region?.toList
  refusing : m'.refusing = e.refused?.getD m.refusing
  byte : m.spans.Pairwise Separate →
    ∀ address, m'.byte address = (e.writtenAt? address).getD (m.byte address)
  mapped : ∀ base length place, e = .mapped base length (.ok place) → m.Shows place ⟨base, length⟩

theorem byte_congr (h : m'.blocks = m.blocks) : m'.byte = m.byte := by
  funext address
  rw [byte, byte, h]

/-- Each call changes what its entry tells, and nothing else. -/
theorem changes_meet (m : Memory) (call : Call) : Changes m (m.meet call).1 (m.meet call).2 := by
  -- a call that moves no block and writes nothing
  have hstill : ∀ {e : Entry} {m' : Memory}, m'.blocks = m.blocks → e.region? = none →
      (∀ address, e.writtenAt? address = none) → m'.refusing = e.refused?.getD m.refusing →
      (∀ base length place, e = .mapped base length (.ok place) →
        m.Shows place ⟨base, length⟩) → Changes m e m' := by
    intro e m' hblocks hregion hwritten hrefusing hmapped
    refine ⟨?_, hrefusing, fun _ address => ?_, hmapped⟩
    · rw [spans_congr hblocks, hregion, Option.toList_none, List.append_nil]
    · rw [byte_congr hblocks, hwritten, Option.getD_none]
  cases call with
  | add base length =>
    refine ⟨?_, rfl, fun _ address => ?_, nofun⟩
    · show (m.blocks ++ [_]).map Block.span = _
      rw [List.map_append, List.map_singleton, Block.span, List.length_replicate]
      rfl
    · exact congrFun (byte_addBlock m base length) address
  | write address data =>
    cases hwrite : m.write address data with
    | error fault =>
      simp only [meet, hwrite]
      exact hstill rfl rfl (fun _ => rfl) rfl nofun
    | ok stored =>
      simp only [meet, hwrite]
      refine ⟨?_, ?_, fun hm => byte_write hm hwrite, nofun⟩
      · exact (spans_write hwrite).trans (List.append_nil _).symm
      · obtain ⟨_, _, _, -, -, -, rfl⟩ := write_spec hwrite
        rfl
  | map base length =>
    refine hstill (m.map_shows base length).1 rfl (fun _ => rfl) ?_ ?_
    · show (m.map base length).2.refusing = m.refusing
      unfold map
      dsimp only
      repeat' split
      all_goals rfl
    · intro base' length' place heq
      obtain ⟨rfl, rfl, hplace⟩ := Entry.mapped.inj heq
      exact (m.map_shows _ _).2 place hplace
  | unmap place length =>
    refine hstill (m.blocks_unmap place length) rfl (fun _ => rfl) ?_ nofun
    show (m.unmap place length).refusing = m.refusing
    unfold unmap
    dsimp only
    split <;> rfl
  | refuse on => exact hstill rfl rfl (fun _ => rfl) rfl nofun

/-! ## §4. What a log tells. -/

/-- The log tells what the memory is. -/
structure Tells (log : List Entry) (m : Memory) : Prop where
  spans : m.spans = regions log
  refusing : m.refusing = isRefusing log
  /-- As long as no two regions overlap, each byte is the one that was written last. -/
  byte : (regions log).Pairwise Separate → ∀ address, m.byte address = lastWritten log address
  /-- What was mapped is shown, be it given back since. -/
  shows : ∀ base length place, .mapped base length (.ok place) ∈ log →
    m.Shows place ⟨base, length⟩

/-- Nothing has happened to a memory that is empty. -/
theorem tells_empty : Tells [] {} where
  spans := rfl
  refusing := rfl
  byte _ _ := rfl
  shows := nofun

/-- A place goes on showing what it shows when regions are added. -/
theorem Shows.append {place : Place} {x : Extent} {more : List (UInt64 × Nat)}
    (h : m.Shows place x) (hspans : m'.spans = m.spans ++ more) : m'.Shows place x := by
  obtain ⟨base, length, hspan, hrest⟩ := h
  refine ⟨base, length, ?_, hrest⟩
  rw [hspans, List.getElem?_append_left (List.getElem?_eq_some_iff.1 hspan).1]
  exact hspan

variable {log : List Entry}

/-- One more entry tells what its call has changed. -/
theorem Tells.concat {e : Entry} (h : Tells log m) (hchanges : Changes m e m') :
    Tells (log ++ [e]) m' where
  spans := by rw [hchanges.spans, h.spans, regions_concat]
  refusing := by rw [hchanges.refusing, h.refusing, isRefusing_concat]
  byte hseparate address := by
    rw [regions_concat] at hseparate
    have hbefore := (List.pairwise_append.1 hseparate).1
    rw [hchanges.byte (h.spans ▸ hbefore), h.byte hbefore, lastWritten_concat]
  shows base length place hmem := by
    refine Shows.append ?_ hchanges.spans
    rcases List.mem_append.1 hmem with hbefore | hlast
    · exact h.shows base length place hbefore
    · exact hchanges.mapped base length place (List.mem_singleton.1 hlast).symm

/-- After any calls, the log tells what the memory is. -/
theorem Tells.meetAll (h : Tells log m) (calls : List Call) :
    Tells (log ++ (Simulation.meetAll meet m calls).1) (Simulation.meetAll meet m calls).2 := by
  -- by induction on the calls, behind whatever has been written down so far
  induction calls generalizing log m with
  | nil =>
    rw [Simulation.meetAll, List.append_nil]
    exact h
  | cons call calls ih =>
    have hrest := ih (h.concat (changes_meet m call))
    rwa [List.append_assoc] at hrest

/-! ## §5. Copies. -/

/-- The bytes from an address on that were written last. -/
def lastWrittenFrom (log : List Entry) (base : PhysicalAddress) (count : Nat) : Bytes :=
  (List.range count).map fun i => lastWritten log (base.value.toNat + i)

/-- Whichever mapping is looked through, a copy consists of the bytes that were written
last. -/
theorem Tells.copied {η : Type} {firmware : Firmware (η × Memory)} {world : World η}
    (h : Tells log world.memory) (hseparate : (regions log).Pairwise Separate) {r : Region}
    (hmapped : .mapped r.base r.length (.ok r.place) ∈ log) (buffer : Bytes) :
    (r.copyInto buffer).run (World.platform firmware) world =
      (Bytes.overlay buffer (lastWrittenFrom log r.base (r.reach buffer.length)), world) := by
  have hshows := h.shows _ _ _ hmapped
  have hload : (world.memory.load r.place (r.reach buffer.length)).toList =
      lastWrittenFrom log r.base (r.reach buffer.length) := by
    refine List.ext_getElem ?_ fun i hi _ => ?_
    · rw [Vector.length_toList, lastWrittenFrom, List.length_map, List.length_range]
    · have hi : i < r.reach buffer.length := by rwa [Vector.length_toList] at hi
      have hlength : i < r.length := Nat.lt_of_lt_of_le hi (Nat.min_le_left _ _)
      rw [Vector.getElem_toList, getElem_load, byteAt_eq (h.spans ▸ hseparate) hshows hlength,
        h.byte hseparate]
      simp [lastWrittenFrom]
  show (Bytes.overlay buffer (world.memory.load r.place (r.reach buffer.length)).toList, world) = _
  rw [hload]

theorem getElem?_overlay_lastWrittenFrom (log : List Entry) (base : PhysicalAddress)
    (buffer : Bytes) {i count : Nat} (hi : i < count) :
    (Bytes.overlay buffer (lastWrittenFrom log base count))[i]? =
      some (lastWritten log (base.value.toNat + i)) := by
  have hlength : (lastWrittenFrom log base count).length = count := by
    rw [lastWrittenFrom, List.length_map, List.length_range]
  rw [Bytes.overlay, List.getElem?_append_left (hlength.symm ▸ hi), lastWrittenFrom,
    List.getElem?_map, List.getElem?_range hi]
  rfl

end Memory

/-! ## §6. Coherence. -/

open Memory

/-- After any calls, a range can be mapped exactly if mapping is not refused and the range
lies inside one region, and bytes can be written exactly if there is one region for all of
them.  As long as no two regions have an address in common, a copy through a mapping, be
it made before or after the bytes were written, consists of the bytes that were written
last, with zero where none was; so wherever two mappings overlap, copies through them
agree. -/
theorem memory_coherent (calls : List Call) :
    let log := (meetAll meet {} calls).1
    let m := (meetAll meet {} calls).2
    (∀ (base : PhysicalAddress) (length : Nat),
      ((∃ place, (m.map base length).1 = .ok place) ↔
        isRefusing log = false ∧ ∃ a ∈ regions log, Within a base.value length) ∧
      ∀ e, (m.map base length).1 = .error e → e = ⟨base, length⟩) ∧
    (∀ (address : UInt64) (data : Bytes),
      (∃ stored, m.write address data = .ok stored) ↔
        ∃ a ∈ regions log, Within a address data.length) ∧
    ((regions log).Pairwise Separate →
      ∀ {η : Type} (firmware : Firmware (η × Memory)) (world : World η), world.memory = m →
        (∀ (r : Region) (buffer : Bytes), .mapped r.base r.length (.ok r.place) ∈ log →
          (r.copyInto buffer).run (World.platform firmware) world =
            (Bytes.overlay buffer (lastWrittenFrom log r.base (r.reach buffer.length)), world)) ∧
        ∀ (r r' : Region) (buffer buffer' : Bytes) (i j : Nat),
          .mapped r.base r.length (.ok r.place) ∈ log →
          .mapped r'.base r'.length (.ok r'.place) ∈ log →
          i < r.reach buffer.length → j < r'.reach buffer'.length →
          r.base.value.toNat + i = r'.base.value.toNat + j →
            ((r.copyInto buffer).run (World.platform firmware) world).1[i]? =
              ((r'.copyInto buffer').run (World.platform firmware) world).1[j]?) := by
  intro log m
  have htells : Tells log m := tells_empty.meetAll calls
  refine ⟨fun base length => ?_, fun address data => ?_, ?_⟩
  · rw [← htells.spans, ← htells.refusing]
    exact m.map_iff base length
  · rw [← htells.spans]
    exact m.write_iff address data
  · intro hseparate η firmware world hmemory
    have hworld : Tells log world.memory := hmemory ▸ htells
    refine ⟨fun r buffer hmapped => hworld.copied hseparate hmapped buffer, ?_⟩
    intro r r' buffer buffer' i j hmapped hmapped' hi hj haddress
    rw [hworld.copied hseparate hmapped buffer, hworld.copied hseparate hmapped' buffer',
      getElem?_overlay_lastWrittenFrom log r.base buffer hi,
      getElem?_overlay_lastWrittenFrom log r'.base buffer' hj, haddress]

namespace Aliased

/-- Two regions side by side, two mappings that overlap, and bytes written afterwards. -/
def calls : List Call :=
  [.add 0x1000 8, .add 0x1008 4, .map ⟨0x1000⟩ 8, .map ⟨0x1002⟩ 4, .write 0x1002 [1, 2, 3],
    .write 0x1003 [9], .map ⟨0x1006⟩ 4]

/-- A machine with that memory. -/
def world : World Unit where
  firmware := ()
  memory := (meetAll meet {} calls).2

/-- Firmware that is never asked. -/
def firmware : Firmware (Unit × Memory) := fun _ _ _ s => (none, s)

/-- The two mappings. -/
def whole : Region := ⟨⟨0x1000⟩, ⟨0, 0⟩, 8⟩
def part : Region := ⟨⟨0x1002⟩, ⟨0, 2⟩, 4⟩

/-- Both mappings show what was written last; a range across both regions has no place. -/
theorem memory_coherent_aliased :
    ((whole.copyInto (List.replicate 8 0)).run (World.platform firmware) world).1 =
        [0, 0, 1, 9, 3, 0, 0, 0] ∧
      ((part.copyInto (List.replicate 5 7)).run (World.platform firmware) world).1 =
        [1, 9, 3, 0, 7] ∧
      ¬ ∃ place, ((meetAll meet {} calls).2.map ⟨0x1006⟩ 4).1 = .ok place := by
  obtain ⟨hmap, -, hcopies⟩ := memory_coherent calls
  have hregions : regions (meetAll meet {} calls).1 = [(0x1000, 8), (0x1008, 4)] := rfl
  have hapart : Apart (0x1000, 8) (0x1008, 4) := .inl (by decide)
  obtain ⟨hcopy, -⟩ := hcopies (hregions ▸ List.pairwise_pair.2 hapart.separate) firmware world rfl
  have hwhole : Entry.mapped whole.base whole.length (.ok whole.place) ∈
      (meetAll meet {} calls).1 := List.mem_of_getElem? (i := 2) rfl
  have hpart : Entry.mapped part.base part.length (.ok part.place) ∈
      (meetAll meet {} calls).1 := List.mem_of_getElem? (i := 3) rfl
  refine ⟨?_, ?_, ?_⟩
  · rw [hcopy whole _ hwhole]
    decide
  · rw [hcopy part _ hpart]
    decide
  · rw [(hmap ⟨0x1006⟩ 4).1, hregions]
    unfold Within
    decide

end Aliased
end ManagementUnit.Simulation
