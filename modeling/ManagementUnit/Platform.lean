/-
  ManagementUnit.Platform
  ────────────────────────────────
  The driver as a program that asks a platform for what it needs.

  Whatever the driver does to the machine is a `Request` with a typed reply;
  a failure is one of the replies.  A `Program` is a tree of requests, one
  branch for each reply, and decides nothing about who answers.  A `Platform`
  answers requests out of a state of its own, so a statement about every
  platform is a statement about every bus, memory, clock and processor.

  `Program.run` gives the answer and the platform's state afterwards,
  `Program.journal` the requests that were made and the replies they got, in
  order.  `Program.Reaches` says the same without a platform: which answers a
  program can come to under which journals.

  The last sections are the programs that everything else is made of: attempts,
  which end in an answer or a failure, and one program for each thing that the
  machine can be asked for.

  Main results:
    * `run_bind`, `journal_bind` — a run in two parts is the first part's run
      and then the second's.
    * `reaches_bind_iff`          — so is what a program can come to.
    * `reaches_journal`           — what a platform makes of a program is one of
      the things the program can come to.
-/
import ManagementUnit.Diagnostic
import ManagementUnit.Time

namespace ManagementUnit

/-! ## §1. Requests. -/

/-- One thing the driver asks of the platform. -/
inductive Request where
  /-- The registers of an identification leaf. -/
  | identify (leaf subleaf : UInt32)
  /-- A word of the host bridge's configuration space. -/
  | readBridge (offset : UInt16)
  /-- Stores a word in the host bridge's configuration space. -/
  | writeBridge (offset : UInt16) (value : UInt32)
  /-- Makes a physical range readable. -/
  | map (base : PhysicalAddress) (length : Nat)
  /-- Gives a readable range back. -/
  | unmap (place : Place) (length : Nat)
  /-- The first bytes of a readable range as they are now. -/
  | load (place : Place) (count : Nat)
  /-- The time on the monotonic clock. -/
  | now
  /-- Takes note of something. -/
  | note (diagnostic : Diagnostic)

/-- What a request is answered with. -/
abbrev Request.Reply : Request → Type
  | identify .. => Registers
  | readBridge _ => Except BridgeFault UInt32
  | writeBridge .. => Except BridgeFault Unit
  | map .. => Except MapError Place
  | unmap .. => Unit
  | load _ count => Vector UInt8 count
  | now => Duration
  | note _ => Unit

/-- A request and the reply it got. -/
structure Event where
  request : Request
  reply : request.Reply

/-! ## §2. Programs. -/

/-- A tree of requests with an answer at each leaf. -/
inductive Program (α : Type) : Type where
  /-- Done, with an answer. -/
  | done (answer : α)
  /-- One request, and how to go on with each reply. -/
  | ask (request : Request) (next : request.Reply → Program α)

namespace Program

variable {α β γ : Type}

/-- Goes on with `next` where a program is done. -/
def andThen (p : Program α) (next : α → Program β) : Program β :=
  match p with
  | done a => next a
  | ask r k => ask r fun reply => (k reply).andThen next

/-- Programs are put together by going on where one is done. -/
instance : Monad Program where
  pure := done
  bind := andThen

/-- Nothing is asked before a program that is done. -/
theorem done_bind (a : α) (next : α → Program β) : (done a >>= next) = next a := rfl

/-- The first request of a program is the first of everything it begins. -/
theorem ask_bind (r : Request) (k : r.Reply → Program α) (next : α → Program β) :
    (ask r k >>= next) = ask r fun reply => k reply >>= next := rfl

/-- It does not matter how three programs in a row are grouped. -/
theorem bind_assoc (p : Program α) (f : α → Program β) (g : β → Program γ) :
    (p >>= f >>= g) = (p >>= fun a => f a >>= g) := by
  induction p with
  | done a => rfl
  | ask r k ih =>
    simp only [ask_bind]
    congr 1
    funext reply
    exact ih reply

/-- Nothing is asked after a program that ends at once. -/
theorem bind_done (p : Program α) : (p >>= done) = p := by
  induction p with
  | done a => rfl
  | ask r k ih =>
    simp only [ask_bind]
    congr 1
    funext reply
    exact ih reply

instance : LawfulMonad Program := LawfulMonad.mk'
  Program
  bind_done
  done_bind
  bind_assoc

/-- The program that makes one request and answers with the reply. -/
def request (r : Request) : Program r.Reply := ask r done

/-- Takes note of something. -/
def note (d : Diagnostic) : Program Unit := request (.note d)

end Program

/-! ## §3. Platforms. -/

/-- Answers every request out of a state of its own. -/
abbrev Platform (σ : Type) := (r : Request) → σ → r.Reply × σ

namespace Program

variable {σ α β : Type}

/-- The answer of a program on a platform, and the platform's state
afterwards. -/
def run (platform : Platform σ) : Program α → σ → α × σ
  | done a, s => (a, s)
  | ask r k, s =>
    let answered := platform r s
    run platform (k answered.1) answered.2

/-- The requests of a program on a platform with the replies they get, in
order. -/
def journal (platform : Platform σ) : Program α → σ → List Event
  | done _, _ => []
  | ask r k, s =>
    let answered := platform r s
    ⟨r, answered.1⟩ :: journal platform (k answered.1) answered.2

/-- Two programs in a row: the second runs where the first left the platform. -/
theorem run_bind (platform : Platform σ) (p : Program α) (next : α → Program β) (s : σ) :
    (p >>= next).run platform s
      = (next (p.run platform s).1).run platform (p.run platform s).2 := by
  induction p generalizing s with
  | done a => rfl
  | ask r k ih => exact ih _ _

/-- Two programs in a row: their journals stand one after the other. -/
theorem journal_bind (platform : Platform σ) (p : Program α) (next : α → Program β) (s : σ) :
    (p >>= next).journal platform s
      = p.journal platform s
        ++ (next (p.run platform s).1).journal platform (p.run platform s).2 := by
  induction p generalizing s with
  | done a => rfl
  | ask r k ih => exact congrArg _ (ih _ _)

/-! ## §4. What a program can come to. -/

/-- `p.Reaches es a`: if the requests of `p` are answered as `es` tells, it
makes just those requests and ends with `a`. -/
inductive Reaches : Program α → List Event → α → Prop where
  | done (a : α) : Reaches (.done a) [] a
  | ask {r : Request} {k : r.Reply → Program α} {reply : r.Reply} {es : List Event} {a : α} :
      Reaches (k reply) es a → Reaches (.ask r k) (⟨r, reply⟩ :: es) a

/-- A program that is done comes to its answer and asks nothing. -/
theorem reaches_done_iff {a b : α} {es : List Event} :
    Reaches (.done a) es b ↔ es = [] ∧ b = a := by
  constructor
  · intro h
    cases h
    exact ⟨rfl, rfl⟩
  · rintro ⟨rfl, rfl⟩
    exact .done _

/-- What two programs come to, they come to in a row. -/
theorem Reaches.bind {p : Program α} {next : α → Program β} {es fs : List Event} {a : α} {b : β}
    (hp : Reaches p es a) (hn : Reaches (next a) fs b) : Reaches (p >>= next) (es ++ fs) b := by
  induction hp with
  | done a => exact hn
  | ask _ ih => exact .ask (ih hn)

/-- What two programs in a row come to splits where the first one is done. -/
theorem reaches_bind_iff {p : Program α} {next : α → Program β} {es : List Event} {b : β} :
    Reaches (p >>= next) es b
      ↔ ∃ fs gs a, es = fs ++ gs ∧ Reaches p fs a ∧ Reaches (next a) gs b := by
  constructor
  · intro h
    induction p generalizing es with
    | done a => exact ⟨[], es, a, rfl, .done a, h⟩
    | ask r k ih =>
      cases h with
      | ask h =>
        obtain ⟨fs, gs, a, rfl, hf, hg⟩ := ih _ h
        exact ⟨_ :: fs, gs, a, rfl, .ask hf, hg⟩
  · rintro ⟨fs, gs, a, rfl, hf, hg⟩
    exact hf.bind hg

/-- What a platform makes of a program is something the program can come to. -/
theorem reaches_journal (platform : Platform σ) (p : Program α) (s : σ) :
    Reaches p (p.journal platform s) (p.run platform s).1 := by
  induction p generalizing s with
  | done a => exact .done a
  | ask r k ih => exact .ask (ih _ _)

end Program

/-! ## §5. Attempts.

A failed step ends the attempt: what comes after it is not asked for. -/

open Program (request note)

/-- A program whose answer may be a failure. -/
abbrev Attempt (α : Type) := ExceptT Failure Program α

namespace Attempt

variable {α : Type}

/-- An attempt that fails with `failure`. -/
def fail (failure : Failure) : Attempt α := throw failure

/-- A value that must be there for the driver to go on. -/
def require : Option α → Attempt α
  | some a => return a
  | none => fail .unsupported

/-- Makes an attempt and, if it fails, takes note of the failure. -/
def noting (attempt : Attempt α) (diagnostic : Failure → Diagnostic) : Attempt α :=
  ExceptT.mk do
    match ← attempt.run with
    | .ok a => return .ok a
    | .error failure =>
      note (diagnostic failure)
      return .error failure

end Attempt

/-! ## §6. The network and its bridge.

Each access sets the address on the index register first.  If that fails, the data
register is not touched; otherwise it is touched once. -/

namespace Network

/-- Notes a fault and fails with it. -/
def refuse {α : Type} (fault : NetworkFault) : Program (Except NetworkFault α) := do
  note (.networkFault fault)
  return .error fault

/-- Reads one word. -/
def read (window : Window) (address : UInt32) : Program (Except NetworkFault UInt32) := do
  match ← request (.writeBridge window.index address) with
  | .error _ => refuse (.select address)
  | .ok () =>
    match ← request (.readBridge window.data) with
    | .error _ => refuse (.read address)
    | .ok value => return .ok value

/-- Writes one word. -/
def write (window : Window) (address value : UInt32) : Program (Except NetworkFault Unit) := do
  match ← request (.writeBridge window.index address) with
  | .error _ => refuse (.select address)
  | .ok () =>
    match ← request (.writeBridge window.data value) with
    | .error _ => refuse (.write address)
    | .ok () => return .ok ()

end Network

/-- The identity of the host bridge, from its first configuration word. -/
def BridgeId.query : Program (Except BridgeFault BridgeId) := do
  match ← request (.readBridge 0) with
  | .error fault => return .error fault
  | .ok word => return .ok (BridgeId.ofWord word)

/-! ## §7. The processor.

Two leaves are read, each at subleaf zero, whatever they answer. -/

/-- The signature of the processor the driver runs on. -/
def Signature.query : Program Signature := do
  let version ← request (.identify versionLeaf 0)
  let package ← request (.identify packageLeaf 0)
  return ⟨⟨version.eax⟩, ⟨package.ebx⟩⟩

/-- The processor the driver runs on. -/
def Processor.query : Program (Except IdentityError Processor) := do
  let signature ← Signature.query
  note (.signatureRead signature.version.family signature.version.model
    signature.version.stepping signature.package.package)
  match signature.processor with
  | .error error =>
    note (.processorUnknown error)
    return .error error
  | .ok processor =>
    note (.processorNamed processor.codename)
    return .ok processor

/-! ## §8. Mapped ranges.

A region keeps its base and length for as long as it is mapped.  It does not give itself
back: whoever mapped it releases it. -/

/-- One mapped physical range. -/
structure Region where
  base : PhysicalAddress
  place : Place
  length : Nat
  deriving DecidableEq

namespace Region

/-- Maps a physical range. -/
def map (base : PhysicalAddress) (length : Nat) : Program (Except MapError Region) := do
  match ← request (.map base length) with
  | .error error => return .error error
  | .ok place => return .ok ⟨base, place, length⟩

/-- Gives a region back. -/
def release (r : Region) : Program Unit := request (.unmap r.place r.length)

/-- How many bytes of a region go into a buffer of a given length. -/
def reach (r : Region) (room : Nat) : Nat := min r.length room

/-- Copies the current contents of a region over the front of a buffer. -/
def copyInto (r : Region) (buffer : Bytes) : Program Bytes := do
  let bytes ← request (.load r.place (r.reach buffer.length))
  return Bytes.overlay buffer bytes.toList

end Region

end ManagementUnit
