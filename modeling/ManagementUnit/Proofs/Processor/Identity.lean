/-
  ManagementUnit.Proofs.Processor.Identity
  ────────────────────────────────
  Identification undoes the encoding of a signature.

  A signature packs family, model, stepping and package into a few fields of two
  words and leaves the other bits free: two gaps in the version word, and all but the
  top four bits of the package word.  A processor may set those as it likes.  Reading
  a field is a division and a remainder by powers of two, which go through the bitwise
  operations one bit range at a time, so what is or-ed into the gaps stays there.

  The escape value of the base family splits all signatures in two.  Those that have it
  are the encodings under some free bits, and are named for what was encoded.  The
  others have a family below the escape value whatever their other fields are, and no
  such family is known.

  Main results:
    * `VersionWord.field_spared`   — a field does not see what a mask keeps from it.
    * `Signature.processor_blurred` — nor does the processor see the free bits.
    * `Signature.processor_encode` — an encoded signature is named for what was encoded.
    * `Signature.eq_blurred`       — every signature with the escape value is one.
    * `identity_of_signature`      — what identification makes of each signature.
-/
import Mathlib.Algebra.Group.Nat.Defs
import ManagementUnit.Platform
import ManagementUnit.Simulation.World

namespace ManagementUnit

/-! ## §1. Fields of a word. -/

namespace VersionWord

theorem field_or (a b : UInt32) (i j : Nat) :
    (⟨a ||| b⟩ : VersionWord).field (2 ^ i) (2 ^ j) =
      (⟨a⟩ : VersionWord).field (2 ^ i) (2 ^ j) ||| (⟨b⟩ : VersionWord).field (2 ^ i) (2 ^ j) := by
  unfold field
  rw [UInt32.toNat_or, Nat.or_div_two_pow, Nat.or_mod_two_pow]

theorem field_and (a b : UInt32) (i j : Nat) :
    (⟨a &&& b⟩ : VersionWord).field (2 ^ i) (2 ^ j) =
      (⟨a⟩ : VersionWord).field (2 ^ i) (2 ^ j) &&& (⟨b⟩ : VersionWord).field (2 ^ i) (2 ^ j) := by
  unfold field
  rw [UInt32.toNat_and, Nat.and_div_two_pow, Nat.and_mod_two_pow]

/-- A field does not see what a mask keeps from it. -/
theorem field_spared {mask : UInt32} {i j : Nat}
    (h : (⟨mask⟩ : VersionWord).field (2 ^ i) (2 ^ j) = 0) (a noise : UInt32) :
    (⟨a ||| (noise &&& mask)⟩ : VersionWord).field (2 ^ i) (2 ^ j) =
      (⟨a⟩ : VersionWord).field (2 ^ i) (2 ^ j) := by
  rw [field_or, field_and, h, Nat.and_zero, Nat.or_zero]

/-- A field that is left empty shows what a mask lets through to all of it. -/
theorem field_filled {mask a : UInt32} {i j : Nat}
    (ha : (⟨a⟩ : VersionWord).field (2 ^ i) (2 ^ j) = 0)
    (h : (⟨mask⟩ : VersionWord).field (2 ^ i) (2 ^ j) = 2 ^ j - 1) (noise : UInt32) :
    (⟨a ||| (noise &&& mask)⟩ : VersionWord).field (2 ^ i) (2 ^ j) =
      (⟨noise⟩ : VersionWord).field (2 ^ i) (2 ^ j) := by
  rw [field_or, field_and, h, ha, Nat.zero_or, Nat.and_two_pow_sub_one_eq_mod]
  exact Nat.mod_mod _ _

/-- Bits 15:12, which mean nothing. -/
def lowGap (w : VersionWord) : Nat := w.field 0x1000 0x10

/-- Bits 31:28, which mean nothing either. -/
def highGap (w : VersionWord) : Nat := w.field 0x10000000 0x10

/-- A word is made of its fields and the gaps between them. -/
theorem toNat_eq_fields (w : VersionWord) :
    w.bits.toNat = w.stepping + w.baseModel * 0x10 + w.baseFamily * 0x100 + w.lowGap * 0x1000
      + w.extendedModel * 0x10000 + w.extendedFamily * 0x100000 + w.highGap * 0x10000000 := by
  have hbits := w.bits.toNat_lt
  simp only [stepping, baseModel, baseFamily, lowGap, extendedModel, extendedFamily, highGap, field]
  omega

theorem eq_of_fields {v w : VersionWord} (hstepping : v.stepping = w.stepping)
    (hmodel : v.baseModel = w.baseModel) (hfamily : v.baseFamily = w.baseFamily)
    (hlow : v.lowGap = w.lowGap) (hextendedModel : v.extendedModel = w.extendedModel)
    (hextendedFamily : v.extendedFamily = w.extendedFamily) (hhigh : v.highGap = w.highGap) :
    v = w := by
  have hbits : v.bits.toNat = w.bits.toNat := by
    rw [toNat_eq_fields v, toNat_eq_fields w, hstepping, hmodel, hfamily, hlow, hextendedModel,
      hextendedFamily, hhigh]
  obtain ⟨v⟩ := v
  obtain ⟨w⟩ := w
  exact congrArg mk (UInt32.toNat_inj.1 hbits)

/-- Values that fit lie side by side in a packed word, and nothing lies between them. -/
theorem fields_pack {s m f m' f' : Nat} (hs : s < 0x10) (hm : m < 0x10) (hf : f < 0x10)
    (hm' : m' < 0x10) (hf' : f' < 0x100) :
    let w := pack s m f m' f'
    w.stepping = s ∧ w.baseModel = m ∧ w.baseFamily = f ∧ w.extendedModel = m' ∧
      w.extendedFamily = f' ∧ w.lowGap = 0 ∧ w.highGap = 0 := by
  have hbits : (pack s m f m' f').bits.toNat =
      s + m * 0x10 + f * 0x100 + m' * 0x10000 + f' * 0x100000 := by
    refine UInt32.toNat_ofNat_of_lt' ?_
    show _ < 2 ^ 32
    omega
  simp only [stepping, baseModel, baseFamily, extendedModel, extendedFamily, lowGap, highGap,
    field, hbits]
  refine ⟨?_, ?_, ?_, ?_, ?_, ?_, ?_⟩ <;> omega

end VersionWord

namespace PackageWord

/-- Bits 27:0, which tell nothing of the package. -/
def rest (w : PackageWord) : Nat := w.bits.toNat % 0x10000000

/-- A word is made of the package number and the rest. -/
theorem eq_of_fields {v w : PackageWord} (hnumber : v.packageNumber = w.packageNumber)
    (hrest : v.rest = w.rest) : v = w := by
  obtain ⟨v⟩ := v
  obtain ⟨w⟩ := w
  simp only [packageNumber, rest] at hnumber hrest
  have hbits : v.toNat = w.toNat := by omega
  rw [UInt32.toNat_inj.1 hbits]

end PackageWord

/-! ## §2. Free bits. -/

namespace Signature

/-- The signature with bits of `eax` and `ebx` where it says nothing: bits 15:12 and 31:28
of the version word, bits 27:0 of the package word. -/
def blurred (x : Signature) (eax ebx : UInt32) : Signature where
  version := ⟨x.version.bits ||| (eax &&& 0xF000F000)⟩
  package := ⟨x.package.bits ||| (ebx &&& 0x0FFFFFFF)⟩

variable (x : Signature) (eax ebx : UInt32)

theorem stepping_blurred : (x.blurred eax ebx).version.stepping = x.version.stepping :=
  VersionWord.field_spared (i := 0) (j := 4) rfl _ _

theorem baseModel_blurred : (x.blurred eax ebx).version.baseModel = x.version.baseModel :=
  VersionWord.field_spared (i := 4) (j := 4) rfl _ _

theorem baseFamily_blurred : (x.blurred eax ebx).version.baseFamily = x.version.baseFamily :=
  VersionWord.field_spared (i := 8) (j := 4) rfl _ _

theorem extendedModel_blurred :
    (x.blurred eax ebx).version.extendedModel = x.version.extendedModel :=
  VersionWord.field_spared (i := 16) (j := 4) rfl _ _

theorem extendedFamily_blurred :
    (x.blurred eax ebx).version.extendedFamily = x.version.extendedFamily :=
  VersionWord.field_spared (i := 20) (j := 8) rfl _ _

theorem packageNumber_blurred :
    (x.blurred eax ebx).package.packageNumber = x.package.packageNumber := by
  show (x.package.bits ||| (ebx &&& 0x0FFFFFFF)).toNat / 2 ^ 28 = x.package.bits.toNat / 2 ^ 28
  have hmask : (0x0FFFFFFF : UInt32).toNat / 2 ^ 28 = 0 := rfl
  rw [UInt32.toNat_or, UInt32.toNat_and, Nat.or_div_two_pow, Nat.and_div_two_pow, hmask,
    Nat.and_zero, Nat.or_zero]

/-- Free bits do not show in what a signature describes. -/
theorem processor_blurred : (x.blurred eax ebx).processor = x.processor := by
  have hfamily : (x.blurred eax ebx).version.family = x.version.family := by
    unfold VersionWord.family
    rw [baseFamily_blurred, extendedFamily_blurred]
  have hmodel : (x.blurred eax ebx).version.model = x.version.model := by
    unfold VersionWord.model
    rw [baseFamily_blurred, baseModel_blurred, extendedModel_blurred]
  have hpackage : (x.blurred eax ebx).package.package = x.package.package := by
    unfold PackageWord.package
    rw [packageNumber_blurred]
  unfold processor
  rw [hfamily, hmodel, hpackage, stepping_blurred]

/-! ## §3. Encodings. -/

/-- Values that a signature with the escape value can carry. -/
structure Encodable (family model stepping package : Nat) : Prop where
  family_ge : 0x0F ≤ family
  family_le : family ≤ 0x10E
  model_lt : model < 0x100
  stepping_lt : stepping < 0x10
  package_lt : package < 0x10

section Encode

variable {family model stepping package : Nat}

/-- The fields of an encoded signature. -/
theorem fields_encode (family model stepping package : Nat) :
    let w := (encode family model stepping package).version
    w.stepping = stepping % 0x10 ∧ w.baseModel = model % 0x10 ∧ w.baseFamily = 0xF ∧
      w.extendedModel = model / 0x10 % 0x10 ∧ w.extendedFamily = (family - 0xF) % 0x100 ∧
      w.lowGap = 0 ∧ w.highGap = 0 :=
  VersionWord.fields_pack (Nat.mod_lt _ (by decide)) (Nat.mod_lt _ (by decide)) (by decide)
    (Nat.mod_lt _ (by decide)) (Nat.mod_lt _ (by decide))

theorem package_encode (family model stepping package : Nat) :
    let w := (encode family model stepping package).package
    w.packageNumber = package % 0x10 ∧ w.rest = 0 := by
  have hbits : (UInt32.ofNat (package % 16 * 0x10000000)).toNat = package % 16 * 0x10000000 := by
    refine UInt32.toNat_ofNat_of_lt' ?_
    show _ < 2 ^ 32
    omega
  simp only [encode, PackageWord.packageNumber, PackageWord.rest, hbits]
  omega

/-- An encoded signature describes just what was encoded. -/
theorem processor_encode (h : Encodable family model stepping package) :
    (encode family model stepping package).processor =
      (Codename.decode family model (.ofRaw package)).map
        fun c => ⟨family, model, stepping, .ofRaw package, c⟩ := by
  obtain ⟨hge, hle, hmodel, hstepping, hpackage⟩ := h
  obtain ⟨h₁, h₂, h₃, h₄, h₅, -, -⟩ := fields_encode family model stepping package
  obtain ⟨h₆, -⟩ := package_encode family model stepping package
  have hfamily : (encode family model stepping package).version.family = family := by
    rw [VersionWord.family, h₃, h₅, if_pos rfl]
    omega
  have hmodel : (encode family model stepping package).version.model = model := by
    rw [VersionWord.model, h₂, h₃, h₄, if_pos rfl]
    omega
  have hstepping : (encode family model stepping package).version.stepping = stepping := by
    rw [h₁]
    omega
  have hpackage : (encode family model stepping package).package.package = .ofRaw package := by
    rw [PackageWord.package, h₆, Nat.mod_eq_of_lt hpackage]
  unfold processor
  rw [hfamily, hmodel, hstepping, hpackage]

end Encode

/-- Where an encoded signature says nothing, it shows the free bits. -/
theorem free_blurred (family model stepping package : Nat) :
    let y := (encode family model stepping package).blurred eax ebx
    y.version.lowGap = (⟨eax⟩ : VersionWord).lowGap ∧
      y.version.highGap = (⟨eax⟩ : VersionWord).highGap ∧
        y.package.rest = (⟨ebx⟩ : PackageWord).rest := by
  obtain ⟨-, -, -, -, -, hlow, hhigh⟩ := fields_encode family model stepping package
  obtain ⟨-, hrest⟩ := package_encode family model stepping package
  refine ⟨VersionWord.field_filled (i := 12) (j := 4) hlow rfl eax,
    VersionWord.field_filled (i := 28) (j := 4) hhigh rfl eax, ?_⟩
  have hmask : (0x0FFFFFFF : UInt32).toNat % 2 ^ 28 = 2 ^ 28 - 1 := rfl
  show (_ ||| (ebx &&& 0x0FFFFFFF)).toNat % 2 ^ 28 = ebx.toNat % 2 ^ 28
  rw [UInt32.toNat_or, UInt32.toNat_and, Nat.or_mod_two_pow, Nat.and_mod_two_pow, hmask,
    Nat.and_two_pow_sub_one_eq_mod, Nat.mod_mod]
  exact (congrArg (· ||| _) hrest).trans (Nat.zero_or _)

/-- Every signature with the escape value is an encoding under some free bits. -/
theorem eq_blurred {x : Signature} (h : x.version.baseFamily = 0xF) :
    ∃ family model stepping package, Encodable family model stepping package ∧
      x = (encode family model stepping package).blurred x.version.bits x.package.bits := by
  -- what is encoded are the fields of the signature itself
  let family := 0xF + x.version.extendedFamily
  let model := x.version.extendedModel * 0x10 + x.version.baseModel
  let stepping := x.version.stepping
  let package := x.package.packageNumber
  have hs : stepping < 0x10 := Nat.mod_lt _ (by decide)
  have hm : x.version.baseModel < 0x10 := Nat.mod_lt _ (by decide)
  have hm' : x.version.extendedModel < 0x10 := Nat.mod_lt _ (by decide)
  have hf' : x.version.extendedFamily < 0x100 := Nat.mod_lt _ (by decide)
  have hp : package < 0x10 := Nat.div_lt_of_lt_mul x.package.bits.toNat_lt
  refine ⟨family, model, stepping, package, ⟨by omega, by omega, by omega, hs, hp⟩, ?_⟩
  obtain ⟨h₁, h₂, h₃, h₄, h₅, -, -⟩ := fields_encode family model stepping package
  obtain ⟨h₆, -⟩ := package_encode family model stepping package
  obtain ⟨hlow, hhigh, hrest⟩ :=
    free_blurred x.version.bits x.package.bits family model stepping package
  let y := (encode family model stepping package).blurred x.version.bits x.package.bits
  have hversion : x.version = y.version := by
    refine VersionWord.eq_of_fields ?_ ?_ ?_ hlow.symm ?_ ?_ hhigh.symm
    · rw [stepping_blurred, h₁, Nat.mod_eq_of_lt hs]
    · rw [baseModel_blurred, h₂]
      omega
    · rw [baseFamily_blurred, h₃, h]
    · rw [extendedModel_blurred, h₄]
      omega
    · rw [extendedFamily_blurred, h₅]
      omega
  have hpackage : x.package = y.package := by
    refine PackageWord.eq_of_fields ?_ hrest.symm
    rw [packageNumber_blurred, h₆, Nat.mod_eq_of_lt hp]
  show x = ⟨y.version, y.package⟩
  rw [← hversion, ← hpackage]

end Signature

/-! ## §4. Identification. -/

/-- What cannot be named is reported with the family it has, and at most its model. -/
theorem Codename.error_of_decode {family model : Nat} {package : Package} {e : IdentityError}
    (h : Codename.decode family model package = .error e) :
    e = .unsupportedFamily family ∨ e = .unknownModel family model := by
  unfold decode at h
  dsimp only at h
  split at h
  · cases h
    exact .inl rfl
  · cases h
    exact .inr rfl
  · cases h

/-- Below the escape value no family is known, and only the base family counts. -/
theorem Signature.processor_of_base {x : Signature} (h : x.version.baseFamily < 0xF) :
    x.processor = .error (.unsupportedFamily x.version.baseFamily) := by
  have hfamily : x.version.family = x.version.baseFamily := if_neg (by omega)
  have h17 : x.version.baseFamily ≠ family17h := by
    unfold family17h
    omega
  have h19 : x.version.baseFamily ≠ family19h := by
    unfold family19h
    omega
  unfold processor Codename.decode
  rw [hfamily, if_neg h17, if_neg h19]
  rfl

/-- Whatever is noted on the way, the processor is the one that the signature describes. -/
theorem Processor.run_query {σ : Type} (platform : Platform σ) (s : σ) :
    (Processor.query.run platform s).1 = (Signature.query.run platform s).1.processor := by
  unfold query
  rw [Program.run_bind, Program.run_bind]
  split
  · next h => exact h.symm
  · next h => exact h.symm

/-- On any platform, a signature with the escape value is named for what is encoded in it
or refused with the error of the decision table, whatever its free bits are; any other is
refused with its base family, whatever else it says.  There is no third kind. -/
theorem identity_of_signature {σ : Type} (platform : Platform σ) (s : σ) :
    let x := (Signature.query.run platform s).1
    let named := (Processor.query.run platform s).1
    (∀ family model stepping package eax ebx,
        Signature.Encodable family model stepping package →
        x = (Signature.encode family model stepping package).blurred eax ebx →
          named = (Codename.decode family model (.ofRaw package)).map
              (fun c => ⟨family, model, stepping, .ofRaw package, c⟩) ∧
            ∀ e, named = .error e →
              e = .unsupportedFamily family ∨ e = .unknownModel family model) ∧
      (x.version.baseFamily < 0xF → named = .error (.unsupportedFamily x.version.baseFamily)) ∧
      (x.version.baseFamily < 0xF ∨
        ∃ family model stepping package eax ebx,
          Signature.Encodable family model stepping package ∧
            x = (Signature.encode family model stepping package).blurred eax ebx) := by
  intro x named
  have hnamed : named = x.processor := Processor.run_query platform s
  refine ⟨?_, ?_, ?_⟩
  · intro family model stepping package eax ebx hrange hx
    have heq : named = (Codename.decode family model (.ofRaw package)).map
        (fun c => ⟨family, model, stepping, .ofRaw package, c⟩) := by
      rw [hnamed, hx, Signature.processor_blurred, Signature.processor_encode hrange]
    refine ⟨heq, fun e he => ?_⟩
    cases hdecode : Codename.decode family model (.ofRaw package) with
    | error e' =>
      rw [heq, hdecode] at he
      cases he
      exact Codename.error_of_decode hdecode
    | ok c =>
      rw [heq, hdecode] at he
      cases he
  · intro hbase
    rw [hnamed]
    exact Signature.processor_of_base hbase
  · have hlt : x.version.baseFamily < 0x10 := Nat.mod_lt _ (by decide)
    rcases Nat.lt_succ_iff_lt_or_eq.1 hlt with hbase | hbase
    · exact .inl hbase
    · obtain ⟨family, model, stepping, package, hrange, hx⟩ := Signature.eq_blurred hbase
      exact .inr ⟨family, model, stepping, package, _, _, hrange, hx⟩

namespace Blurred

open Simulation

/-- A machine with a given signature. -/
def machine (x : Signature) : World Unit where
  signature := x
  firmware := ()

/-- Firmware that never answers. -/
def firmware : Firmware (Unit × Memory) := fun _ _ _ s => (none, s)

/-- A processor with every free bit set is named all the same, and an old one with every
extended bit set is not taken for a later one. -/
theorem identity_of_signature_noisy :
    (Processor.query.run (World.platform firmware)
        (machine ((Signature.encode 0x19 0x21 2 2).blurred 0xFFFFFFFF 0xFFFFFFFF))).1 =
      .ok ⟨0x19, 0x21, 2, .am4, .vermeer⟩ ∧
    (Processor.query.run (World.platform firmware) (machine ⟨⟨0x0FFF06F1⟩, ⟨0xFFFFFFFF⟩⟩)).1 =
      .error (.unsupportedFamily 6) := by
  refine ⟨?_, ?_⟩
  · obtain ⟨hencoded, -, -⟩ := identity_of_signature (World.platform firmware)
      (machine ((Signature.encode 0x19 0x21 2 2).blurred 0xFFFFFFFF 0xFFFFFFFF))
    exact (hencoded 0x19 0x21 2 2 0xFFFFFFFF 0xFFFFFFFF
      ⟨by decide, by decide, by decide, by decide, by decide⟩ rfl).1
  · obtain ⟨-, hbase, -⟩ := identity_of_signature (World.platform firmware)
      (machine ⟨⟨0x0FFF06F1⟩, ⟨0xFFFFFFFF⟩⟩)
    exact hbase (by decide)

end Blurred
end ManagementUnit
