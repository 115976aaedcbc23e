/-
  ManagementUnit.Bytes
  ────────────────────────────────
  Byte strings and the little-endian form of machine words.

  A word is four bytes, the least significant first.  `Word.toBytes` writes
  one and `Word.ofBytes?` reads one back; the reader accepts four bytes and
  nothing else.

  Main results:
    * `Word.ofBytes?_toBytes` — a written word reads back.
    * `Word.ofBytes?_eq_some_iff` — and nothing else reads as that word.
    * `length_overlay`        — writing over the front of a buffer keeps its
      length when the data fits.
-/

namespace ManagementUnit

/-- A string of bytes: a message, a buffer, or a stretch of memory. -/
abbrev Bytes := List UInt8

/-! ## §1. Little-endian words. -/

namespace Word

/-- The byte of a word that has a given weight in it: 1 for the least significant
one, then 100h, 10000h and 1000000h. -/
def byte (w : UInt32) (weight : Nat) : UInt8 := UInt8.ofNat (w.toNat / weight)

/-- The four bytes of a word, least significant first. -/
def toBytes (w : UInt32) : Bytes :=
  [byte w 0x1, byte w 0x100, byte w 0x10000, byte w 0x1000000]

/-- The word whose bytes are given, least significant first. -/
def join (b₀ b₁ b₂ b₃ : UInt8) : UInt32 :=
  UInt32.ofNat (b₀.toNat + 0x100 * b₁.toNat + 0x10000 * b₂.toNat + 0x1000000 * b₃.toNat)

/-- Reads a word; anything but four bytes is refused. -/
def ofBytes? : Bytes → Option UInt32
  | [b₀, b₁, b₂, b₃] => some (join b₀ b₁ b₂ b₃)
  | _ => none

/-- The four bytes of a word make it up again. -/
theorem join_byte (w : UInt32) :
    join (byte w 0x1) (byte w 0x100) (byte w 0x10000) (byte w 0x1000000) = w := by
  apply UInt32.toNat.inj
  have h := w.toNat_lt
  simp only [join, byte, UInt8.toNat_ofNat', UInt32.toNat_ofNat']
  omega

/-- A written word reads back. -/
theorem ofBytes?_toBytes (w : UInt32) : ofBytes? (toBytes w) = some w := by
  simp [ofBytes?, toBytes, join_byte]

/-- The bytes that make up a word are the bytes of it. -/
theorem toBytes_join (b₀ b₁ b₂ b₃ : UInt8) : toBytes (join b₀ b₁ b₂ b₃) = [b₀, b₁, b₂, b₃] := by
  have h₀ := b₀.toNat_lt
  have h₁ := b₁.toNat_lt
  have h₂ := b₂.toNat_lt
  have h₃ := b₃.toNat_lt
  simp only [toBytes, byte, join, UInt32.toNat_ofNat', List.cons.injEq, and_true]
  refine ⟨?_, ?_, ?_, ?_⟩ <;> apply UInt8.toNat.inj <;> simp only [UInt8.toNat_ofNat'] <;> omega

/-- A string reads as a word exactly if it is how the word is written. -/
theorem ofBytes?_eq_some_iff {bytes : Bytes} {w : UInt32} :
    ofBytes? bytes = some w ↔ bytes = toBytes w := by
  refine ⟨fun h => ?_, fun h => h ▸ ofBytes?_toBytes w⟩
  unfold ofBytes? at h
  split at h
  · obtain rfl := Option.some.inj h
    exact (toBytes_join _ _ _ _).symm
  · cases h

/-- A written word has four bytes. -/
theorem length_toBytes (w : UInt32) : (toBytes w).length = 4 := rfl

/-- Exactly the strings of four bytes are words. -/
theorem isSome_ofBytes? (bytes : Bytes) : (ofBytes? bytes).isSome = true ↔ bytes.length = 4 := by
  rw [Option.isSome_iff_exists]
  constructor
  · rintro ⟨w, h⟩
    rw [ofBytes?_eq_some_iff.1 h, length_toBytes]
  · intro h
    match bytes, h with
    | [b₀, b₁, b₂, b₃], _ => exact ⟨join b₀ b₁ b₂ b₃, rfl⟩

end Word

/-- The eight bytes of a double word, least significant first.  The number is
cut to 64 bits. -/
def LongWord.toBytes (n : Nat) : Bytes :=
  Word.toBytes (UInt32.ofNat n) ++ Word.toBytes (UInt32.ofNat (n / 0x100000000))

/-! ## §2. Buffers. -/

/-- `data` written over the front of `buffer`; what the data does not reach
stays as it was. -/
def Bytes.overlay (buffer data : Bytes) : Bytes := data ++ buffer.drop data.length

/-- Data that fits does not change the length of a buffer. -/
theorem length_overlay (buffer data : Bytes) (h : data.length ≤ buffer.length) :
    (Bytes.overlay buffer data).length = buffer.length := by
  simp only [Bytes.overlay, List.length_append, List.length_drop]
  omega

end ManagementUnit
