/-
  ManagementUnit.Processor.Identity
  ────────────────────────────────
  What a processor says about itself, and which generation it belongs to.

  Leaf `01h` carries family, model and stepping in one word, leaf `8000_0001h`
  the package in another:

      leaf 01h, EAX         27:20 extended family   19:16 extended model
                            11:8  base family       7:4   base model
                            3:0   stepping
      leaf 8000_0001h, EBX  31:28 package           15:0  brand

  A base family of `0Fh` is the escape value: only then do the extended fields
  count.  `Signature.encode` builds the two words of a processor,
  `VersionWord.family`, `VersionWord.model` and `PackageWord.package` take them
  apart.

  The decision table goes by family, then model, then in three places by
  package.  A combination that is not in the table is an error; there is no
  codename to fall back on.

  Main results:
    * `Package.raw_ofRaw` — naming a package loses nothing.
-/
import ManagementUnit.Processor.Codename
import ManagementUnit.Text.Basic

namespace ManagementUnit

/-! ## §1. The identification query. -/

/-- The four registers that one identification query fills. -/
structure Registers where
  eax : UInt32 := 0
  ebx : UInt32 := 0
  ecx : UInt32 := 0
  edx : UInt32 := 0
  deriving DecidableEq

/-- The leaf with family, model and stepping. -/
def versionLeaf : UInt32 := 0x01

/-- The leaf with the package type. -/
def packageLeaf : UInt32 := 0x80000001

/-! ## §2. The version word. -/

/-- The word of leaf `01h` that holds family, model and stepping. -/
structure VersionWord where
  bits : UInt32
  deriving DecidableEq

namespace VersionWord

/-- The field whose lowest bit has a given weight in the word and which takes
`size` values. -/
def field (w : VersionWord) (weight size : Nat) : Nat := w.bits.toNat / weight % size

/-- The stepping: bits 3:0. -/
def stepping (w : VersionWord) : Nat := w.field 0x1 0x10

/-- The base model: bits 7:4. -/
def baseModel (w : VersionWord) : Nat := w.field 0x10 0x10

/-- The base family: bits 11:8. -/
def baseFamily (w : VersionWord) : Nat := w.field 0x100 0x10

/-- The extended model: bits 19:16. -/
def extendedModel (w : VersionWord) : Nat := w.field 0x10000 0x10

/-- The extended family: bits 27:20. -/
def extendedFamily (w : VersionWord) : Nat := w.field 0x100000 0x100

/-- The word with the given fields and zeros between them. -/
def pack (stepping baseModel baseFamily extendedModel extendedFamily : Nat) : VersionWord :=
  ⟨UInt32.ofNat (stepping + baseModel * 0x10 + baseFamily * 0x100 + extendedModel * 0x10000
    + extendedFamily * 0x100000)⟩

/-- The family: base and extended family added up if the base family is the
escape value, else the base family. -/
def family (w : VersionWord) : Nat :=
  if w.baseFamily = 0xF then w.baseFamily + w.extendedFamily else w.baseFamily

/-- The model: the extended model in front of the base model if the base family
is the escape value, else the base model. -/
def model (w : VersionWord) : Nat :=
  if w.baseFamily = 0xF then w.extendedModel * 16 + w.baseModel else w.baseModel

/-- The word with the given fields; refused if a value does not fit its field. -/
def ofFields? (stepping baseModel baseFamily extendedModel extendedFamily : Nat) :
    Option VersionWord :=
  if stepping < 16 ∧ baseModel < 16 ∧ baseFamily < 16 ∧ extendedModel < 16
      ∧ extendedFamily < 256 then
    some (pack stepping baseModel baseFamily extendedModel extendedFamily)
  else none

end VersionWord

/-! ## §3. The package word. -/

/-- The socket or package a processor sits in. -/
inductive Package where
  | fp5
  | am4
  | sp3
  | sp3r2
  /-- A package number without a name here. -/
  | other (raw : Nat)
  deriving DecidableEq

namespace Package

/-- The package with a given number. -/
def ofRaw : Nat → Package
  | 0 => fp5
  | 2 => am4
  | 4 => sp3
  | 7 => sp3r2
  | n => other n

/-- The number of a package. -/
def raw : Package → Nat
  | fp5 => 0
  | am4 => 2
  | sp3 => 4
  | sp3r2 => 7
  | other n => n

/-- Naming a package loses nothing. -/
theorem raw_ofRaw (n : Nat) : (ofRaw n).raw = n := by
  unfold ofRaw
  split <;> rfl

end Package

/-- The word of leaf `8000_0001h` that holds the package type. -/
structure PackageWord where
  bits : UInt32
  deriving DecidableEq

namespace PackageWord

/-- The brand number in the low half. -/
def brand (w : PackageWord) : Nat := w.bits.toNat % 0x10000

/-- The package number in the top four bits. -/
def packageNumber (w : PackageWord) : Nat := w.bits.toNat / 0x10000000

/-- The package with the number in the word. -/
def package (w : PackageWord) : Package := Package.ofRaw w.packageNumber

end PackageWord

/-! ## §4. Signatures. -/

/-- The two identification words of one processor. -/
structure Signature where
  version : VersionWord
  package : PackageWord
  deriving DecidableEq

namespace Signature

/-- The registers a processor with this signature answers with: every leaf but
the two known ones reads zero, and the subleaf does not matter. -/
def registers (s : Signature) (leaf : UInt32) : Registers :=
  if leaf = versionLeaf then { eax := s.version.bits }
  else if leaf = packageLeaf then { ebx := s.package.bits }
  else {}

/-- The signature of a processor of family `0Fh` or later.  The family is taken
relative to `0Fh` and cut to eight bits, model and package lose what does not
fit their fields. -/
def encode (family model stepping package : Nat) : Signature where
  version := VersionWord.pack (stepping % 16) (model % 16) 0xF (model / 16 % 16)
    ((family - 0xF) % 256)
  package := ⟨UInt32.ofNat (package % 16 * 0x10000000)⟩

/-- A signature that a processor of the given generation could have. -/
def representative? : Codename → Option Signature
  | .undefined => none
  | .colfax => some (encode 0x17 0x08 0 7)
  | .renoir => some (encode 0x17 0x60 0 0)
  | .picasso => some (encode 0x17 0x18 0 0)
  | .matisse => some (encode 0x17 0x71 0 2)
  | .threadripper => some (encode 0x17 0x01 0 7)
  | .castlePeak => some (encode 0x17 0x31 0 7)
  | .ravenRidge => some (encode 0x17 0x11 0 0)
  | .ravenRidge2 => some (encode 0x17 0x18 0 2)
  | .summitRidge => some (encode 0x17 0x01 0 2)
  | .pinnacleRidge => some (encode 0x17 0x08 0 2)
  | .rembrandt => some (encode 0x19 0x40 0 0)
  | .vermeer => some (encode 0x19 0x21 0 2)
  | .vangogh => some (encode 0x17 0x90 0 0)
  | .cezanne => some (encode 0x19 0x50 0 0)
  | .milan => some (encode 0x19 0x01 0 4)
  | .dali => some (encode 0x17 0x20 0 0)

end Signature

/-! ## §5. The generation. -/

/-- Why a processor could not be named. -/
inductive IdentityError where
  /-- No generation of this family is known. -/
  | unsupportedFamily (family : Nat)
  /-- The family is known, the model is not. -/
  | unknownModel (family model : Nat)
  deriving DecidableEq

namespace IdentityError

/-- The error text of a processor that could not be named. -/
def message : IdentityError → String
  | unsupportedFamily f => "unsupported processor family " ++ Hex.marked f
  | unknownModel f m =>
    "unknown model " ++ Hex.marked m ++ " in processor family " ++ Hex.marked f

end IdentityError

/-- A processor that has been named. -/
structure Processor where
  family : Nat
  model : Nat
  stepping : Nat
  package : Package
  codename : Codename
  deriving DecidableEq

/-- Family of the first two generations and their refreshes. -/
def family17h : Nat := 0x17

/-- Family of the third generation. -/
def family19h : Nat := 0x19

/-- The generation with a given model in family `17h`. -/
def Codename.ofModel17h? (model : Nat) (package : Package) : Option Codename :=
  match model with
  | 0x01 => some (if package = .sp3r2 then .threadripper else .summitRidge)
  | 0x08 => some (if package = .sp3r2 then .colfax else .pinnacleRidge)
  | 0x11 => some .ravenRidge
  | 0x18 => some (if package = .am4 then .ravenRidge2 else .picasso)
  | 0x20 => some .dali
  | 0x31 => some .castlePeak
  | 0x60 => some .renoir
  | 0x71 => some .matisse
  | 0x90 => some .vangogh
  | _ => none

/-- The generation with a given model in family `19h`. -/
def Codename.ofModel19h? : Nat → Option Codename
  | 0x01 => some .milan
  | 0x20 => some .vermeer
  | 0x21 => some .vermeer
  | 0x40 => some .rembrandt
  | 0x50 => some .cezanne
  | _ => none

/-- The generation of a processor, by family, model and package. -/
def Codename.decode (family model : Nat) (package : Package) : Except IdentityError Codename :=
  let found? :=
    if family = family17h then some (Codename.ofModel17h? model package)
    else if family = family19h then some (Codename.ofModel19h? model)
    else none
  match found? with
  | none => .error (.unsupportedFamily family)
  | some none => .error (.unknownModel family model)
  | some (some c) => .ok c

/-- The processor that a signature describes. -/
def Signature.processor (s : Signature) : Except IdentityError Processor :=
  (Codename.decode s.version.family s.version.model s.package.package).map fun c =>
    { family := s.version.family
      model := s.version.model
      stepping := s.version.stepping
      package := s.package.package
      codename := c }

end ManagementUnit
