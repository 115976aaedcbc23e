/-
  ManagementUnit.Proofs.Memory.Physical
  ────────────────────────────────
  Physical memory, and what a platform promises of it.

  The driver handles places and sees nothing of what is behind them.
  `PhysicalMemory` is what is behind them on some platform: a byte at each address,
  and which stretch of them a place shows.  Any request may change the bytes, as a
  command does that makes the firmware write.  A platform that honours the memory
  promises three things all the same: what it maps, it shows; what is shown is loaded
  as it is at that time; and it goes on being shown until it is given back.

  Main results:
    * `Honours.shows_of_answers` — a place shows what it shows, however long nobody
      gives it back.
    * `Honours.copied`           — a copy is what the memory holds when it is made.
    * `World.honours`            — the simulated machine keeps these promises, as long
      as its blocks do not overlap and its firmware leaves them where they are.
-/
import ManagementUnit.Proofs.Simulation.Trace
import ManagementUnit.Proofs.Table.Uses

namespace ManagementUnit

open Program (reaches_bind_iff reaches_done_iff)

/-! ## §1. What is promised. -/

/-- The physical memory behind a platform. -/
structure PhysicalMemory (σ : Type) where
  /-- The states in which there is no doubt about the byte at an address. -/
  Orderly : σ → Prop
  /-- The byte at an address. -/
  byte : σ → Nat → UInt8
  /-- The place shows the stretch of memory. -/
  Shows : σ → Place → Extent → Prop

namespace PhysicalMemory

variable {σ : Type}

/-- The bytes in a stretch of memory. -/
def contents (memory : PhysicalMemory σ) (s : σ) (x : Extent) : Bytes :=
  (List.range x.length).map fun i => memory.byte s (x.base.value.toNat + i)

theorem length_contents (memory : PhysicalMemory σ) (s : σ) (x : Extent) :
    (memory.contents s x).length = x.length := by
  rw [contents, List.length_map, List.length_range]

/-- What a platform promises of the memory behind it. -/
structure Honours (memory : PhysicalMemory σ) (platform : Platform σ) : Prop where
  orderly : ∀ r s, memory.Orderly s → memory.Orderly (platform r s).2
  /-- What is mapped is shown. -/
  mapped : ∀ s base length place, memory.Orderly s →
    (platform (.map base length) s).1 = .ok place →
      memory.Shows (platform (.map base length) s).2 place ⟨base, length⟩
  /-- What is shown is loaded. -/
  loaded : ∀ s place x count, memory.Orderly s → memory.Shows s place x → count ≤ x.length →
    ∀ i (h : i < count), (platform (.load place count) s).1[i] =
      memory.byte s (x.base.value.toNat + i)
  /-- Only what is given back is no longer shown. -/
  kept : ∀ r s place x, memory.Orderly s → memory.Shows s place x → r ≠ .unmap place x.length →
    memory.Shows (platform r s).2 place x

/-- Nothing but firmware and time changes the memory: mapping and loading leave its
bytes alone. -/
def Still (memory : PhysicalMemory σ) (platform : Platform σ) : Prop :=
  ∀ r s, r.isHandling = true → memory.byte (platform r s).2 = memory.byte s

namespace Honours

variable {memory : PhysicalMemory σ} {platform : Platform σ} {s s' : σ} {es : List Event}

theorem orderly_of_answers (h : memory.Honours platform) (hes : Answers platform s es s')
    (hs : memory.Orderly s) : memory.Orderly s' :=
  hes.invariant (fun e _ s => h.orderly e.request s) hs

/-- A place shows what it shows, however long nobody gives it back. -/
theorem shows_of_answers (h : memory.Honours platform) (hes : Answers platform s es s')
    (hs : memory.Orderly s) {place : Place} {x : Extent} (hshows : memory.Shows s place x)
    (hkept : ∀ e ∈ es, e.request ≠ .unmap place x.length) : memory.Shows s' place x := by
  refine (hes.invariant (P := fun s => memory.Orderly s ∧ memory.Shows s place x) ?_
    ⟨hs, hshows⟩).2
  rintro e he s ⟨hs, hshows⟩
  exact ⟨h.orderly _ _ hs, h.kept _ _ _ _ hs hshows (hkept e he)⟩

end Honours

theorem Still.contents_eq {memory : PhysicalMemory σ} {platform : Platform σ} {s s' : σ}
    {es : List Event} (h : memory.Still platform) (hes : Answers platform s es s')
    (hhandling : ∀ e ∈ es, e.request.isHandling = true) :
    memory.contents s' = memory.contents s := by
  have hbyte : memory.byte s' = memory.byte s :=
    hes.invariant (P := fun t => memory.byte t = memory.byte s)
      (fun e he _ ht => (h _ _ (hhandling e he)).trans ht) rfl
  funext x
  rw [contents, contents, hbyte]

end PhysicalMemory

/-! ## §2. Copies. -/

/-- A copy is one load, of as many bytes as there is room for. -/
theorem Region.reaches_copyInto {r : Region} {buffer filled : Bytes} {es : List Event}
    (h : (r.copyInto buffer).Reaches es filled) :
    ∃ bytes : Vector UInt8 (r.reach buffer.length),
      es = [⟨.load r.place (r.reach buffer.length), bytes⟩] ∧
        filled = Bytes.overlay buffer bytes.toList := by
  obtain ⟨fs, gs, bytes, rfl, hload, hdone⟩ := reaches_bind_iff.1 h
  obtain ⟨rfl, rfl⟩ := reaches_done_iff.1 hdone
  cases hload with
  | ask hload =>
    cases hload
    exact ⟨bytes, rfl, rfl⟩

/-- A copy is what the memory holds when it is made. -/
theorem PhysicalMemory.Honours.copied {σ : Type} {memory : PhysicalMemory σ}
    {platform : Platform σ} (honours : memory.Honours platform) {s s' : σ} {r : Region}
    {buffer filled : Bytes} {es : List Event} (hs : memory.Orderly s)
    (hshows : memory.Shows s r.place r.extent) (hroom : r.length ≤ buffer.length)
    (h : (r.copyInto buffer).Reaches es filled) (hes : Answers platform s es s') :
    filled = memory.contents s r.extent ++ buffer.drop r.length := by
  obtain ⟨bytes, rfl, rfl⟩ := Region.reaches_copyInto h
  have hreach : r.reach buffer.length = r.length := Nat.min_eq_left hroom
  have hbytes : bytes.toList = memory.contents s r.extent := by
    refine List.ext_getElem ?_ fun i hi _ => ?_
    · rw [Vector.length_toList, hreach, length_contents]
      rfl
    · have hi' : i < r.reach buffer.length := by rwa [Vector.length_toList] at hi
      have hreply : bytes = (platform (.load r.place (r.reach buffer.length)) s).1 := hes.uncons.1
      have hloaded := honours.loaded s r.place r.extent (r.reach buffer.length) hs hshows
        (Nat.min_le_left _ _) i hi'
      rw [← hreply] at hloaded
      simpa [contents] using hloaded
  rw [Bytes.overlay, hbytes, length_contents]
  rfl

/-! ## §3. Simulated memory. -/

namespace Simulation

/-- Where a block begins and how long it is. -/
def Block.span (b : Block) : UInt64 × Nat := (b.base, b.bytes.length)

/-- One of two spans ends before the other one begins. -/
def Apart (a b : UInt64 × Nat) : Prop :=
  a.1.toNat + a.2 ≤ b.1.toNat ∨ b.1.toNat + b.2 ≤ a.1.toNat

/-- An address lies in a span. -/
def Covers (a : UInt64 × Nat) (address : Nat) : Prop :=
  a.1.toNat ≤ address ∧ address < a.1.toNat + a.2

/-- Two spans have no address in common. -/
def Separate (a b : UInt64 × Nat) : Prop := ∀ address, Covers a address → ¬ Covers b address

theorem Apart.separate {a b : UInt64 × Nat} (h : Apart a b) : Separate a b := by
  rintro address ⟨hlow, hhigh⟩ ⟨hlow', hhigh'⟩
  unfold Apart at h
  omega

/-- Whether an address lies in a block. -/
def Block.covers (b : Block) (address : Nat) : Bool :=
  decide (b.base.toNat ≤ address ∧ address < b.base.toNat + b.bytes.length)

theorem Block.covers_iff {b : Block} {address : Nat} :
    b.covers address = true ↔ Covers b.span address :=
  decide_eq_true_iff

/-- A range is found in a block exactly if it begins and ends there. -/
theorem Block.offset?_eq_some_iff {b : Block} {address : UInt64} {length offset : Nat} :
    b.offset? address length = some offset ↔
      b.base.toNat + offset = address.toNat ∧ offset + length ≤ b.bytes.length := by
  unfold offset?
  constructor
  · intro h
    split at h
    · next hinside =>
      obtain ⟨hle, hlength⟩ := hinside
      have hoffset := Option.some.inj h
      rw [UInt64.le_iff_toNat_le] at hle
      omega
    · cases h
  · rintro ⟨hbase, hlength⟩
    have hle : b.base ≤ address := UInt64.le_iff_toNat_le.2 (by omega)
    rw [if_pos ⟨hle, by omega⟩]
    exact congrArg some (by omega)

namespace Memory

/-- Where the blocks of a memory are. -/
def spans (m : Memory) : List (UInt64 × Nat) := m.blocks.map Block.span

/-- The byte at an address; zero where there is no block. -/
def byte (m : Memory) (address : Nat) : UInt8 :=
  match m.blocks.find? (·.covers address) with
  | some b => b.bytes.getD (address - b.base.toNat) 0
  | none => 0

/-- The place is where the stretch begins, in a block that holds all of it. -/
def Shows (m : Memory) (place : Place) (x : Extent) : Prop :=
  ∃ base length, m.spans[place.block]? = some (base, length) ∧
    base.toNat + place.offset = x.base.value.toNat ∧ place.offset + x.length ≤ length

variable {m : Memory} {place : Place} {x : Extent}

/-- In blocks that do not overlap, an address belongs to one of them. -/
theorem find?_covers (hm : m.spans.Pairwise Separate) {k : Nat} {b : Block}
    (hb : m.blocks[k]? = some b) {address : Nat} (hcovers : b.covers address = true) :
    m.blocks.find? (·.covers address) = some b := by
  obtain ⟨hk, rfl⟩ := List.getElem?_eq_some_iff.1 hb
  have hsplit : m.blocks = m.blocks.take k ++ m.blocks[k] :: m.blocks.drop (k + 1) := by
    rw [← List.drop_eq_getElem_cons hk, List.take_append_drop]
  refine List.find?_eq_some_iff_append.2 ⟨hcovers, _, _, hsplit, ?_⟩
  -- a block in front of it has no address in common with it
  intro a ha
  rw [spans, List.pairwise_map, hsplit] at hm
  have hseparate := (List.pairwise_append.1 hm).2.2 a ha _ List.mem_cons_self
  rw [Bool.not_eq_true', Bool.eq_false_iff, ne_eq, Block.covers_iff]
  exact fun hboth => hseparate address hboth (Block.covers_iff.1 hcovers)

/-- The byte at an address of a block is the one that the block has there. -/
theorem byte_of_covers (hm : m.spans.Pairwise Separate) {k : Nat} {b : Block}
    (hb : m.blocks[k]? = some b) {address : Nat} (hcovers : b.covers address = true) :
    m.byte address = b.bytes.getD (address - b.base.toNat) 0 := by
  rw [byte, find?_covers hm hb hcovers]

/-- What is loaded from a place is what the stretch holds that it shows. -/
theorem byteAt_eq (hm : m.spans.Pairwise Separate) (h : m.Shows place x) {i : Nat}
    (hi : i < x.length) : m.byteAt place i = m.byte (x.base.value.toNat + i) := by
  obtain ⟨base, length, hspan, hbase, hlength⟩ := h
  rw [spans, List.getElem?_map] at hspan
  obtain ⟨b, hb, heq⟩ := Option.map_eq_some_iff.1 hspan
  cases heq
  have hcovers : b.covers (x.base.value.toNat + i) = true := by
    rw [Block.covers, decide_eq_true_eq]
    omega
  rw [byteAt, hb, byte_of_covers hm hb hcovers]
  show b.bytes.getD _ 0 = b.bytes.getD _ 0
  congr 1
  omega

theorem locateFrom_spec {blocks : List Block} {i : Nat} {address : UInt64} {length : Nat}
    (h : locateFrom i blocks address length = some place) :
    ∃ k b, place.block = i + k ∧ blocks[k]? = some b ∧
      b.offset? address length = some place.offset := by
  induction blocks generalizing i with
  | nil => cases h
  | cons b rest ih =>
    rw [locateFrom] at h
    cases hoffset : b.offset? address length with
    | some offset =>
      rw [hoffset] at h
      cases h
      exact ⟨0, b, rfl, rfl, hoffset⟩
    | none =>
      rw [hoffset] at h
      obtain ⟨k, c, hblock, hc, hc'⟩ := ih h
      exact ⟨k + 1, c, by omega, hc, hc'⟩

theorem shows_of_locate? {base : PhysicalAddress} {length : Nat}
    (h : m.locate? base.value length = some place) : m.Shows place ⟨base, length⟩ := by
  obtain ⟨k, b, hblock, hb, hoffset⟩ := locateFrom_spec h
  obtain ⟨hbase, hlength⟩ := Block.offset?_eq_some_iff.1 hoffset
  refine ⟨b.base, b.bytes.length, ?_, hbase, hlength⟩
  rw [spans, List.getElem?_map, hblock, Nat.zero_add, hb]
  rfl

/-- Mapping moves no block, and shows what it maps. -/
theorem map_shows (m : Memory) (base : PhysicalAddress) (length : Nat) :
    (m.map base length).2.blocks = m.blocks ∧
      ∀ place, (m.map base length).1 = .ok place → m.Shows place ⟨base, length⟩ := by
  unfold map
  dsimp only
  split
  · exact ⟨rfl, nofun⟩
  · split
    · next hplace =>
      refine ⟨rfl, ?_⟩
      intro place heq
      cases heq
      exact shows_of_locate? hplace
    · exact ⟨rfl, nofun⟩

theorem blocks_unmap (m : Memory) (place : Place) (length : Nat) :
    (m.unmap place length).blocks = m.blocks := by
  unfold unmap
  dsimp only
  split <;> rfl

theorem Shows.congr {m' : Memory} (h : m.Shows place x) (hspans : m'.spans = m.spans) :
    m'.Shows place x := by
  rw [Shows, hspans]
  exact h

theorem spans_congr {m' : Memory} (h : m'.blocks = m.blocks) : m'.spans = m.spans :=
  congrArg (List.map Block.span) h

/-- Bytes that are put inside a block leave it as long as it is. -/
theorem span_put {b : Block} {offset : Nat} {data : Bytes}
    (h : offset + data.length ≤ b.bytes.length) : (b.put offset data).span = b.span := by
  have hroom : data.length ≤ (b.bytes.drop offset).length := by
    rw [List.length_drop]
    omega
  refine Prod.ext rfl ?_
  show (b.bytes.take offset ++ Bytes.overlay (b.bytes.drop offset) data).length = b.bytes.length
  rw [List.length_append, length_overlay _ _ hroom, ← List.length_append, List.take_append_drop]

/-- Bytes that can be written are put inside one of the blocks. -/
theorem write_spec {m' : Memory} {address : UInt64} {data : Bytes}
    (h : m.write address data = .ok m') :
    ∃ k b offset, m.blocks[k]? = some b ∧ b.base.toNat + offset = address.toNat ∧
      offset + data.length ≤ b.bytes.length ∧
        m' = { m with blocks := m.blocks.modify k fun b => b.put offset data } := by
  unfold write at h
  cases hplace : m.locate? address data.length with
  | none =>
    rw [hplace] at h
    cases h
  | some place =>
    rw [hplace] at h
    cases h
    obtain ⟨k, b, hblock, hb, hoffset⟩ := locateFrom_spec hplace
    rw [Nat.zero_add] at hblock
    obtain ⟨hbase, hroom⟩ := Block.offset?_eq_some_iff.1 hoffset
    exact ⟨k, b, place.offset, hb, hbase, hroom, by rw [hblock]⟩

/-- Bytes are written where blocks are; the blocks stay there. -/
theorem spans_write {m' : Memory} {address : UInt64} {data : Bytes}
    (h : m.write address data = .ok m') : m'.spans = m.spans := by
  obtain ⟨k, b, offset, hb, -, hroom, rfl⟩ := write_spec h
  refine List.ext_getElem? fun i => ?_
  simp only [spans, List.getElem?_map, List.getElem?_modify]
  by_cases hi : k = i
  · rw [← hi, hb]
    simpa using span_put hroom
  · simp [hi]

theorem spans_store (m : Memory) (address : UInt64) (data : Bytes) :
    (m.store address data).spans = m.spans := by
  unfold store
  cases hwrite : m.write address data with
  | error fault => rfl
  | ok stored => exact spans_write hwrite

end Memory

namespace World

variable {η : Type} {firmware : Firmware (η × Memory)}

/-- The physical memory of a simulated machine. -/
def physical (η : Type) : PhysicalMemory (World η) where
  Orderly w := w.memory.spans.Pairwise Apart
  byte w := w.memory.byte
  Shows w := w.memory.Shows

/-- Firmware that moves no block. -/
def KeepsBlocks (firmware : Firmware (η × Memory)) : Prop :=
  ∀ command opcode words s, (firmware command opcode words s).2.2.spans = s.2.spans

/-- No request moves a block. -/
theorem spans_platform (hfirmware : KeepsBlocks firmware) (r : Request) (w : World η) :
    (platform firmware r w).2.memory.spans = w.memory.spans := by
  cases r with
  | map base length => exact Memory.spans_congr (w.memory.map_shows base length).1
  | unmap place length => exact Memory.spans_congr (w.memory.blocks_unmap place length)
  | writeBridge offset value => exact memory_writeBridge hfirmware w offset value
  | identify | readBridge | load | now | note => rfl

/-- The simulated machine keeps its promises, as long as its firmware moves no block. -/
theorem honours (hfirmware : KeepsBlocks firmware) :
    (physical η).Honours (platform firmware) where
  orderly r w hw := by
    show (platform firmware r w).2.memory.spans.Pairwise Apart
    rw [spans_platform hfirmware]
    exact hw
  mapped w base length place _ hplace :=
    ((w.memory.map_shows base length).2 place hplace).congr
      (spans_platform hfirmware (.map base length) w)
  loaded w place x count hw hshows hcount i hi := by
    show (w.memory.load place count)[i] = _
    rw [Memory.getElem_load]
    exact Memory.byteAt_eq (hw.imp Apart.separate) hshows (Nat.lt_of_lt_of_le hi hcount)
  kept r w place x _ hshows _ := hshows.congr (spans_platform hfirmware r w)

/-- Only the firmware writes to its memory. -/
theorem still (firmware : Firmware (η × Memory)) : (physical η).Still (platform firmware) := by
  intro r w hr
  cases r with
  | map base length =>
    show (w.memory.map base length).2.byte = w.memory.byte
    funext address
    rw [Memory.byte, Memory.byte, (w.memory.map_shows base length).1]
  | unmap place length =>
    show (w.memory.unmap place length).byte = w.memory.byte
    funext address
    rw [Memory.byte, Memory.byte, w.memory.blocks_unmap]
  | load | note => rfl
  | identify | readBridge | writeBridge | now => cases hr

end World
end Simulation
end ManagementUnit
