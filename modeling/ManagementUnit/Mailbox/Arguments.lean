/-
  ManagementUnit.Mailbox.Arguments
  ────────────────────────────────
  The six argument words that a request carries and an answer returns.

  As bytes, the block is the six words in order, each little-endian, 24 bytes in
  all.  Firmware uses some words as floating point numbers of 32 bits: one sign bit,
  eight exponent bits, 23 bits of fraction.  The driver passes their bits on and never
  calculates with them.

  Main results:
    * `get_set`, `get_ofFn`  — a block is known by its words.
    * `length_toBytes`       — a written block has 24 bytes.
    * `slice_toBytes`        — each word has its four bytes in place.
    * `ofBytes?_toBytes`     — a written block reads back.
    * `ofBytes?_eq_some_iff` — and nothing else reads as that block.
    * `isSome_ofBytes?`      — exactly the strings of 24 bytes are blocks.
-/
import ManagementUnit.Bytes
import ManagementUnit.Text.Basic

namespace ManagementUnit

/-! ## §1. Words as floating point numbers. -/

/-- The bits of a 32-bit floating point number. -/
structure Single where
  bits : UInt32
  deriving DecidableEq

namespace Single

/-- What kind of number the bits stand for. -/
inductive Kind where
  | nan
  | infinite
  | zero
  | subnormal
  | normal
  deriving DecidableEq

/-- The name of a kind of number. -/
def Kind.name : Kind → String
  | nan => "nan"
  | infinite => "infinite"
  | zero => "zero"
  | subnormal => "subnormal"
  | normal => "normal"

/-- The exponent bits. -/
def exponent (x : Single) : Nat := x.bits.toNat / 0x800000 % 0x100

/-- The fraction bits. -/
def fraction (x : Single) : Nat := x.bits.toNat % 0x800000

/-- The kind of a number: the two ends of the exponent's range are special. -/
def kind (x : Single) : Kind :=
  if x.exponent = 255 then if x.fraction = 0 then .infinite else .nan
  else if x.exponent = 0 then if x.fraction = 0 then .zero else .subnormal
  else .normal

end Single

/-! ## §2. Words by position. -/

/-- How many words a block has. -/
abbrev wordCount : Nat := 6

/-- Six argument words. -/
structure Arguments where
  words : Vector UInt32 wordCount
  deriving DecidableEq

namespace Arguments

/-- All positions in a block, in order. -/
def positions : List (Fin wordCount) := [0, 1, 2, 3, 4, 5]

/-- The word at a position. -/
def get (a : Arguments) (i : Fin wordCount) : UInt32 := a.words[i]

/-- The block with the word at one position replaced. -/
def set (a : Arguments) (i : Fin wordCount) (w : UInt32) : Arguments := ⟨a.words.set i w⟩

/-- The block whose word at each position is given by a function. -/
def ofFn (f : Fin wordCount → UInt32) : Arguments := ⟨Vector.ofFn f⟩

/-- Six zero words. -/
def zero : Arguments := ofFn fun _ => 0

/-- The first word. -/
def word0 (a : Arguments) : UInt32 := a.get 0

/-- The second word. -/
def word1 (a : Arguments) : UInt32 := a.get 1

/-- The block with the first word replaced. -/
def withWord0 (a : Arguments) (w : UInt32) : Arguments := a.set 0 w

/-- All zero but the first word. -/
def first (w : UInt32) : Arguments := zero.withWord0 w

/-- All zero but the first two words. -/
def pair (w₀ w₁ : UInt32) : Arguments := (first w₀).set 1 w₁

/-- Applies a function to every word. -/
def map (f : UInt32 → UInt32) (a : Arguments) : Arguments := ofFn fun i => f (a.get i)

/-- The words in order. -/
def toList (a : Arguments) : List UInt32 := a.words.toList

/-- The word at a position as a floating point number. -/
def single (a : Arguments) (i : Fin wordCount) : Single := ⟨a.get i⟩

/-- The block with the word at one position replaced by a floating point
number. -/
def setSingle (a : Arguments) (i : Fin wordCount) (x : Single) : Arguments := a.set i x.bits

/-- An access to a word that a block does not have. -/
structure PositionError where
  position : Nat
  deriving DecidableEq

/-- The error text of an access to a word that a block does not have. -/
def PositionError.message (e : PositionError) : String :=
  "index out of bounds: the len is 6 but the index is " ++ Decimal.digits e.position

/-- The position with a given number. -/
def position? (n : Nat) : Except PositionError (Fin wordCount) :=
  if h : n < wordCount then .ok ⟨n, h⟩ else .error ⟨n⟩

/-- Two blocks with the same words are one block. -/
theorem ext_get {a b : Arguments} (h : ∀ i, a.get i = b.get i) : a = b := by
  cases a with
  | mk u =>
    cases b with
    | mk v =>
      congr 1
      apply Vector.ext
      intro i hi
      exact h ⟨i, hi⟩

/-- A replaced word reads as the new one; the others stay. -/
theorem get_set (a : Arguments) (i j : Fin wordCount) (w : UInt32) :
    (a.set i w).get j = if i = j then w else a.get j := by
  simp only [get, set, Fin.getElem_fin, Vector.getElem_set, Fin.ext_iff]

/-- A block given by a function has the words of the function. -/
theorem get_ofFn (f : Fin wordCount → UInt32) (i : Fin wordCount) : (ofFn f).get i = f i := by
  simp [get, ofFn]

/-- The words in order are the words by position. -/
theorem toList_eq (a : Arguments) : a.toList = positions.map a.get := by
  obtain ⟨⟨⟨words⟩, h⟩⟩ := a
  match words, h with
  | [_, _, _, _, _, _], _ => rfl

/-- A block has six words. -/
theorem length_toList (a : Arguments) : a.toList.length = wordCount := by
  simp [toList]

/-! ## §3. The block as bytes. -/

/-- How many bytes a block has. -/
def byteCount : Nat := 4 * wordCount

/-- The words in order, each least significant byte first. -/
def toBytes (a : Arguments) : Bytes := a.toList.flatMap Word.toBytes

/-- Word number `i` of a byte string; missing bytes count as zero. -/
def wordAt (bytes : Bytes) (i : Nat) : UInt32 :=
  Word.join (bytes.getD (4 * i) 0) (bytes.getD (4 * i + 1) 0) (bytes.getD (4 * i + 2) 0)
    (bytes.getD (4 * i + 3) 0)

/-- Reads a block; anything but 24 bytes is refused. -/
def ofBytes? (bytes : Bytes) : Option Arguments :=
  if bytes.length = byteCount then some (ofFn fun i => wordAt bytes i) else none

/-- A written block has 24 bytes. -/
theorem length_toBytes (a : Arguments) : a.toBytes.length = byteCount := by
  have h : ∀ ws : List UInt32, (ws.flatMap Word.toBytes).length = 4 * ws.length := by
    intro ws
    induction ws with
    | nil => rfl
    | cons w ws ih =>
      simp only [List.flatMap_cons, List.length_append, Word.length_toBytes, ih, List.length_cons]
      omega
  rw [toBytes, h, length_toList, byteCount]

/-- Word number `i` of a written block is the word at position `i`. -/
theorem wordAt_toBytes (a : Arguments) (i : Fin wordCount) : wordAt a.toBytes i = a.get i := by
  rw [toBytes, toList_eq]
  match i with
  | 0 | 1 | 2 | 3 | 4 | 5 => exact Word.join_byte _

/-- The bytes of a word are where its position says. -/
theorem slice_toBytes (a : Arguments) (i : Fin wordCount) :
    (a.toBytes.drop (4 * i.val)).take 4 = Word.toBytes (a.get i) := by
  rw [toBytes, toList_eq]
  match i with
  | 0 | 1 | 2 | 3 | 4 | 5 => rfl

/-- A written block reads back. -/
theorem ofBytes?_toBytes (a : Arguments) : ofBytes? a.toBytes = some a := by
  rw [ofBytes?, if_pos a.length_toBytes]
  congr 1
  apply ext_get
  intro i
  rw [get_ofFn, wordAt_toBytes]

/-- The words of a byte string, one after the other, make it up again. -/
theorem flatMap_wordAt {n : Nat} {bytes : Bytes} (h : bytes.length = 4 * n) :
    (List.range n).flatMap (fun i => Word.toBytes (wordAt bytes i)) = bytes := by
  -- by induction on the number of words, from the front of the string on
  induction n generalizing bytes with
  | zero => exact (List.eq_nil_of_length_eq_zero h).symm
  | succ n ih =>
    match bytes, h with
    | b₀ :: b₁ :: b₂ :: b₃ :: rest, h =>
      have hrest : rest.length = 4 * n := by
        simp only [List.length_cons] at h
        omega
      have hfirst : wordAt (b₀ :: b₁ :: b₂ :: b₃ :: rest) 0 = Word.join b₀ b₁ b₂ b₃ := rfl
      have hlater : ∀ i, wordAt (b₀ :: b₁ :: b₂ :: b₃ :: rest) (i + 1) = wordAt rest i :=
        fun _ => rfl
      rw [List.range_succ_eq_map, List.flatMap_cons, List.flatMap_map, hfirst, Word.toBytes_join]
      simp only [hlater, ih hrest]
      rfl

/-- A string reads as a block exactly if it is how the block is written. -/
theorem ofBytes?_eq_some_iff {bytes : Bytes} {a : Arguments} :
    ofBytes? bytes = some a ↔ bytes = a.toBytes := by
  refine ⟨fun h => ?_, fun h => h ▸ ofBytes?_toBytes a⟩
  unfold ofBytes? at h
  split at h
  · next hlength =>
    obtain rfl := Option.some.inj h
    rw [toBytes, toList_eq, List.flatMap_map]
    simp only [get_ofFn]
    exact (flatMap_wordAt hlength).symm
  · cases h

/-- Exactly the strings of 24 bytes are blocks. -/
theorem isSome_ofBytes? (bytes : Bytes) :
    (ofBytes? bytes).isSome = true ↔ bytes.length = byteCount := by
  unfold ofBytes?
  split <;> simp_all

end Arguments

end ManagementUnit
