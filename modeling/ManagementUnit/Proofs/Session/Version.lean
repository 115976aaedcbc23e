/-
  ManagementUnit.Proofs.Session.Version
  ────────────────────────────────
  What the text of a version tells.

  A version is written as numbers of one byte each with dots between them, three numbers
  if the top byte is zero and four otherwise, none of them filled with zeros.  So neither
  the length of the text nor the number of its parts is fixed, and it takes a reader to
  see that nothing is lost: the dots cut a text into its parts, for no number has a dot
  in it; each part reads as its byte; and how many parts there are tells whether the top
  byte is among them.

  Main results:
    * `Version.ofText?_text`  — the text of a version reads as that version.
    * `Version.lt_iff_parts`  — versions are ordered as their parts are.
    * `Version.length_text`   — a text has at most 15 characters.
    * `version_legible`       — all of this, and that the text fits where it is shown.
-/
import ManagementUnit.Proofs.Session.Output

namespace ManagementUnit

/-! ## §1. Reading. -/

/-- A word is the sum of its bytes, each with its weight. -/
theorem Word.toNat_eq_bytes (w : UInt32) :
    w.toNat = (byte w 0x1).toNat + 0x100 * (byte w 0x100).toNat + 0x10000 * (byte w 0x10000).toNat +
      0x1000000 * (byte w 0x1000000).toNat := by
  have hw := w.toNat_lt
  simp only [byte, UInt8.toNat_ofNat']
  omega

/-- Reads a number of one byte: decimal digits, at least one. -/
def Decimal.byte? (digits : List Char) : Option UInt8 :=
  let n := Nat.ofDigitChars 10 digits 0
  if digits ≠ [] ∧ digits.all Char.isDigit ∧ n < 0x100 then some (UInt8.ofNat n) else none

/-- A written byte reads back. -/
theorem Decimal.byte?_toDigits (b : UInt8) : byte? (Nat.toDigits 10 b.toNat) = some b := by
  have hdigits : (Nat.toDigits 10 b.toNat).all Char.isDigit = true := by
    rw [List.all_eq_true]
    intro c hc
    exact Nat.isDigit_of_mem_toDigits (by decide) (by decide) hc
  have hvalue : Nat.ofDigitChars 10 (Nat.toDigits 10 b.toNat) 0 = b.toNat :=
    Nat.ofDigitChars_ten_toDigits
  unfold byte?
  rw [hvalue, if_pos ⟨Nat.toDigits_ne_nil, hdigits, b.toNat_lt⟩, UInt8.ofNat_toNat]

/-- No digit is a dot. -/
theorem Decimal.dot_not_mem_toDigits (n : Nat) : '.' ∉ Nat.toDigits 10 n := by
  intro hmem
  have hdigit : '.'.isDigit = true := Nat.isDigit_of_mem_toDigits (by decide) (by decide) hmem
  exact absurd hdigit (by decide)

/-- A byte has at most three digits. -/
theorem Decimal.length_toDigits_byte (b : UInt8) : (Nat.toDigits 10 b.toNat).length ≤ 3 := by
  rw [Nat.length_toDigits_le_iff (by decide) (by decide)]
  have hb := b.toNat_lt
  omega

namespace Version

/-- The version with the given parts, most significant first.  Three parts leave the top
byte at zero. -/
def ofParts? : List UInt8 → Option Version
  | [major, minor, patch] => some ⟨Word.join patch minor major 0⟩
  | [top, major, minor, patch] => some ⟨Word.join patch minor major top⟩
  | _ => none

/-- Reads the text of a version: numbers with dots between them. -/
def ofText? (text : String) : Option Version :=
  ((text.toList.splitOn '.').mapM Decimal.byte?).bind ofParts?

/-- The parts that are written make up the version. -/
theorem ofParts?_written (v : Version) : ofParts? v.written = some v := by
  have hraw := Word.join_byte v.raw
  unfold written
  split
  · next hsmall =>
    have htop : Word.byte v.raw 0x1000000 = 0 := by
      rw [Word.byte, Nat.div_eq_of_lt hsmall]
      rfl
    rw [htop] at hraw
    exact congrArg (fun w => some (Version.mk w)) hraw
  · exact congrArg (fun w => some (Version.mk w)) hraw

/-- Three or four parts are written. -/
theorem length_written (v : Version) : v.written.length = 3 ∨ v.written.length = 4 := by
  unfold written
  split
  · exact .inl rfl
  · exact .inr rfl

/-- The pieces of a text are its numbers with dots between them. -/
theorem toList_text (v : Version) :
    v.text.toList = ['.'].intercalate (v.written.map fun part => Nat.toDigits 10 part.toNat) := by
  rw [text, String.toList_join, pieces, List.intercalate]
  induction v.written with
  | nil => rfl
  | cons part rest ih =>
    cases rest with
    | nil => simp [Decimal.digits]
    | cons part' rest =>
      simp only [List.map_cons, List.intersperse_cons_cons, List.flatMap_cons,
        List.flatten_cons] at ih ⊢
      rw [ih]
      simp [Decimal.digits]

/-- The text of a version reads as that version. -/
theorem ofText?_text (v : Version) : ofText? v.text = some v := by
  have hdots : ∀ l ∈ v.written.map fun part => Nat.toDigits 10 part.toNat, '.' ∉ l := by
    intro l hl
    obtain ⟨part, -, rfl⟩ := List.mem_map.1 hl
    exact Decimal.dot_not_mem_toDigits part.toNat
  have hparts : (v.written.map fun part => Nat.toDigits 10 part.toNat) ≠ [] := by
    intro heq
    have hlength := v.length_written
    rw [List.map_eq_nil_iff.1 heq] at hlength
    cases hlength <;> contradiction
  have hread : (v.written.map fun part => Nat.toDigits 10 part.toNat).mapM Decimal.byte? =
      some v.written := by
    rw [List.mapM_map]
    induction v.written with
    | nil => rfl
    | cons part rest ih =>
      rw [List.mapM_cons, ih, Function.comp_apply, Decimal.byte?_toDigits]
      rfl
  rw [ofText?, toList_text, List.splitOn_intercalate '.' hdots hparts, hread]
  exact v.ofParts?_written

example : ofText? "46.62.0" = some ⟨0x2E3E00⟩ ∧ ofText? "4.56.65.0" = some ⟨0x4384100⟩ := by
  decide

/-- Versions are ordered as their parts are, the first difference deciding. -/
theorem lt_iff_parts (a b : Version) : a < b ↔ a.parts < b.parts := by
  have ha := Word.toNat_eq_bytes a.raw
  have hb := Word.toNat_eq_bytes b.raw
  have hbyte := fun w weight => (Word.byte w weight).toNat_lt
  have hend : ¬ ([] : List UInt8) < [] := List.not_lt_nil _
  show a.raw < b.raw ↔ _
  simp only [parts, List.cons_lt_cons_iff, UInt8.lt_iff_toNat_lt, ← UInt8.toNat_inj,
    UInt32.lt_iff_toNat_lt, hend, and_false, or_false]
  have ha₀ := hbyte a.raw 0x1
  have ha₁ := hbyte a.raw 0x100
  have ha₂ := hbyte a.raw 0x10000
  have hb₀ := hbyte b.raw 0x1
  have hb₁ := hbyte b.raw 0x100
  have hb₂ := hbyte b.raw 0x10000
  omega

/-- A text has at most 15 characters. -/
theorem length_text (v : Version) : v.text.length ≤ 15 := by
  -- no number takes more than three digits and a dot, and the last one has no dot behind it
  have hroom : ∀ parts : List UInt8,
      (['.'].intercalate (parts.map fun part => Nat.toDigits 10 part.toNat)).length ≤
        4 * parts.length - 1 := by
    intro parts
    induction parts with
    | nil => exact Nat.le_refl 0
    | cons part rest ih =>
      have hpart := Decimal.length_toDigits_byte part
      cases rest with
      | nil => simpa using hpart
      | cons part' rest =>
        simp only [List.map_cons, List.intercalate_cons_cons, List.length_append,
          List.length_cons, List.length_nil] at ih ⊢
        omega
  have hwritten := v.length_written
  have htext := hroom v.written
  rw [← toList_text, String.length_toList] at htext
  omega

end Version

/-! ## §2. Showing. -/

/-- A text and the line feed behind it take 16 bytes at most, so with that much room the
endpoint shows them. -/
theorem Session.run_read_firmwareVersion {σ : Type} (platform : Platform σ) (t : σ) (s : Session)
    {buffer : Bytes} (hroom : 16 ≤ buffer.length) :
    let line := Bytes.ofAscii (s.driver.firmware.text ++ "\n")
    ((Session.read .firmwareVersion buffer).run s).run platform t =
      (((.ok line.length, line ++ buffer.drop line.length), s), t) := by
  intro line
  have hline : (Rendering.line s.driver.firmware.pieces).bytes = line := Rendering.bytes_line _
  have hlength : line.length = s.driver.firmware.text.length + 1 := by
    show (List.map _ _).length = _
    rw [List.length_map, String.length_toList, String.length_append]
    rfl
  have hfits : (Rendering.line s.driver.firmware.pieces).bytes.length ≤ buffer.length := by
    have htext := s.driver.firmware.length_text
    rw [hline, hlength]
    omega
  rw [Session.run_read_of_rendering rfl rfl, Rendering.put_of_fits hfits, hline]
  rfl

/-- The text of a version loses nothing: no two versions have the same text, a text reads
as its version, and versions are ordered as their parts are.  An endpoint with room for 16
bytes always shows it. -/
theorem version_legible :
    (∀ a b : Version, a.text = b.text → a = b) ∧
    (∀ v : Version, Version.ofText? v.text = some v) ∧
    (∀ a b : Version, a < b ↔ a.parts < b.parts) ∧
    ∀ {σ : Type} (platform : Platform σ) (t : σ) (s : Session) (buffer : Bytes),
      16 ≤ buffer.length →
      let line := Bytes.ofAscii (s.driver.firmware.text ++ "\n")
      ((Session.read .firmwareVersion buffer).run s).run platform t =
        (((.ok line.length, line ++ buffer.drop line.length), s), t) := by
  refine ⟨fun a b htext => ?_, Version.ofText?_text, Version.lt_iff_parts, ?_⟩
  · have hread := a.ofText?_text
    rw [htext, b.ofText?_text] at hread
    exact (Option.some.inj hread).symm
  · intro σ platform t s buffer hroom
    exact Session.run_read_firmwareVersion platform t s hroom

namespace Longest

open Simulation

/-- A session on a driver that was told the longest version there is. -/
def session : Session := .start { Cramped.session.driver with firmware := ⟨0xFFFFFFFF⟩ }

/-- What showing it comes to on a machine that does nothing by itself. -/
def shown (buffer : Bytes) : ((Except EndpointError Nat × Bytes) × Session) × World Unit :=
  ((Session.read .firmwareVersion buffer).run session).run
    (World.platform fun _ _ _ s => (none, s)) Cramped.machine

/-- The longest text fills 16 bytes, and only one version has it. -/
theorem version_legible_longest :
    session.driver.firmware.text = "255.255.255.255" ∧
    session.driver.firmware = ⟨0xFFFFFFFF⟩ ∧
    shown (List.replicate 16 0xEE) =
      (((.ok 16, Bytes.ofAscii "255.255.255.255\n"), session), Cramped.machine) := by
  obtain ⟨hinjective, -, -, hshown⟩ := version_legible
  refine ⟨rfl, ?_, ?_⟩
  · exact hinjective session.driver.firmware ⟨0xFFFFFFFF⟩ rfl
  · exact hshown (World.platform fun _ _ _ s => (none, s)) Cramped.machine session
      (List.replicate 16 0xEE) (by decide)

-- one byte less, and the line feed does not fit any more
example : (shown (List.replicate 15 0xEE)).1.1 =
    (.error (.bufferTooSmall .firmwareVersion), Bytes.ofAscii "255.255.255.255") := rfl

end Longest
end ManagementUnit
