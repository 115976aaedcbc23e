/-
  ManagementUnit.Proofs.Driver.Gates
  ────────────────────────────────
  The gates that a start of the driver passes.

  Each gate fails the start in a way of its own, and what lies behind it is left
  alone: the bridge if the processor cannot be named, the network if the bridge is
  not a known one, the general purpose mailbox and the table if the power management
  mailbox does not tell a version.  Behind the last gate nothing makes the start fail
  any more, and nothing is mapped before.

  Main results:
    * `BridgeId.isKnown_ofWord` — which first words name a known bridge.
    * `start_gated`             — what the gates make of a start on any platform.
-/
import ManagementUnit.Proofs.History
import ManagementUnit.Proofs.Driver.Course
import ManagementUnit.Proofs.Mailbox.Conversation

namespace ManagementUnit

/-! ## §1. What is accessed on the way. -/

/-- The configuration accesses among some events. -/
def accesses (es : List Event) : List Event := es.filter fun e => e.request.isAccess

theorem accesses_append (es fs : List Event) : accesses (es ++ fs) = accesses es ++ accesses fs :=
  List.filter_append es fs

/-- Nothing is mapped. -/
def Unmapped (es : List Event) : Prop := ∀ e ∈ es, ∀ base length, e.request ≠ .map base length

theorem Unmapped.append {es fs : List Event} (hes : Unmapped es) (hfs : Unmapped fs) :
    Unmapped (es ++ fs) := List.forall_mem_append.2 ⟨hes, hfs⟩

theorem Event.Inquiry.unmapped {e : Event} (h : e.Inquiry) (base : PhysicalAddress) (length : Nat) :
    e.request ≠ .map base length := by
  cases h <;> nofun

/-- What naming the processor consists of. -/
def Request.isNaming : Request → Bool
  | identify .. => true
  | note (.signatureRead ..) | note (.processorUnknown _) | note (.processorNamed _) => true
  | _ => false

/-- The same, request by request. -/
inductive Request.Naming : Request → Prop where
  | identify (leaf subleaf : UInt32) : Naming (.identify leaf subleaf)
  | signatureRead (family model stepping : Nat) (package : Package) :
      Naming (.note (.signatureRead family model stepping package))
  | processorUnknown (e : IdentityError) : Naming (.note (.processorUnknown e))
  | processorNamed (c : Codename) : Naming (.note (.processorNamed c))

theorem Request.naming_of_isNaming {r : Request} (h : r.isNaming = true) : r.Naming := by
  cases r with
  | identify => constructor
  | note d => cases d <;> first | constructor | cases h
  | readBridge | writeBridge | map | unmap | load | now => cases h

theorem naming_of_query {es : List Event} {r : Except IdentityError Processor}
    (h : Processor.query.Reaches es r) : ∀ e ∈ es, e.request.isNaming = true := by
  obtain ⟨_, gs, signature, rfl, hsignature, h⟩ := Program.reaches_bind_iff.1 h
  have hleaves : ∀ {fs}, Signature.query.Reaches fs signature →
      ∀ e ∈ fs, e.request.isNaming = true := by
    intro fs h
    cases h with
    | ask h =>
      cases h with
      | ask h =>
        cases h
        simp [Request.isNaming]
  refine List.forall_mem_append.2 ⟨hleaves hsignature, ?_⟩
  cases h with
  | ask h =>
    split at h <;>
      · cases h with
        | ask h =>
          cases h
          simp [Request.isNaming]

/-- Naming the processor goes past bridge and memory. -/
theorem quiet_of_query {es : List Event} {r : Except IdentityError Processor}
    (h : Processor.query.Reaches es r) : accesses es = [] ∧ Unmapped es := by
  have hnaming := naming_of_query h
  constructor
  · refine List.filter_eq_nil_iff.2 ?_
    rintro ⟨request, reply⟩ he
    cases Request.naming_of_isNaming (hnaming _ he) <;> exact Bool.false_ne_true
  · rintro ⟨request, reply⟩ he base length rfl
    cases hnaming _ he

/-! ## §2. Known bridges. -/

/-- The word names the vendor and one of the devices that lead to a management
network. -/
def NamesBridge (word : UInt32) : Prop :=
  word.toNat % 0x10000 = 0x1022 ∧ word.toNat / 0x10000 ∈ [0x1450, 0x15D0, 0x1480, 0x1630]

/-- Those are the words of a known bridge. -/
theorem BridgeId.isKnown_ofWord (word : UInt32) :
    (BridgeId.ofWord word).isKnown = true ↔ NamesBridge word := by
  have hword := word.toNat_lt
  have hhalf : ∀ {n k : Nat}, n < 0x10000 → k < 0x10000 →
      (UInt16.ofNat n = UInt16.ofNat k ↔ n = k) := by
    intro n k hn hk
    rw [← UInt16.toNat_inj, UInt16.toNat_ofNat', UInt16.toNat_ofNat', Nat.mod_eq_of_lt hn,
      Nat.mod_eq_of_lt hk]
  have hvendor : UInt16.ofNat word.toNat = UInt16.ofNat (word.toNat % 0x10000) := by
    rw [← UInt16.toNat_inj, UInt16.toNat_ofNat', UInt16.toNat_ofNat']
    omega
  have hlow : word.toNat % 0x10000 < 0x10000 := Nat.mod_lt _ (by decide)
  have hhigh : word.toNat / 0x10000 < 0x10000 := by omega
  simp only [isKnown, ofWord, knownVendor, knownDevices, NamesBridge, Bool.and_eq_true, beq_iff_eq,
    List.contains_eq_mem, decide_eq_true_eq, List.mem_cons, List.not_mem_nil, or_false, hvendor]
  rw [← hhalf hlow (k := 0x1022) (by decide), ← hhalf hhigh (k := 0x1450) (by decide),
    ← hhalf hhigh (k := 0x15D0) (by decide), ← hhalf hhigh (k := 0x1480) (by decide),
    ← hhalf hhigh (k := 0x1630) (by decide)]
  rfl

/-! ## §3. The gates. -/

namespace Driver

variable {σ : Type}

/-- What the bridge answers to the question for its identity, once the processor was
asked for its own, and how that leaves the platform. -/
def bridgeAnswer (platform : Platform σ) (s : σ) : Except BridgeFault UInt32 × σ :=
  platform (.readBridge 0) (Processor.query.run platform s).2

/-- The platform when the mailboxes of the processor `p` have been looked up. -/
def whenBound (platform : Platform σ) (s : σ) (p : Processor) : σ :=
  (platform (.note (.mailboxesBound p.codename)) (bridgeAnswer platform s).2).2

/-- The first transaction of a start: the version query of the power management
mailbox. -/
def firstTransaction (settings : Settings) (p : Processor) : Program (Except Failure Arguments) :=
  ((mailboxesOf settings p).execute .mp1 0x02 (.first 1)).run

/-- What the last gate makes of the answer of the first transaction, with the events
after it. -/
def Admitted (answer : Except Failure Arguments) (rest : List Event)
    (r : Except Failure Driver) : Prop :=
  match answer with
  | .error f => r = .error f ∧ accesses rest = []
  | .ok words =>
    if 0xFF < words.word0 then ∃ d, r = .ok d
    else r = .error (.rejected .failed) ∧ accesses rest = []

/-- What the gates make of a start: `es` is what is asked of the platform, and `r` how
it ends. -/
structure Gated (platform : Platform σ) (s : σ) (settings : Settings) (es : List Event)
    (r : Except Failure Driver) : Prop where
  /-- A start fails over the name of the processor exactly if the processor cannot be
  named, -/
  unidentified : ∀ e,
    r = .error (.unidentified e) ↔ (Processor.query.run platform s).1 = .error e
  /-- and then nothing is accessed. -/
  untouched : ∀ e, (Processor.query.run platform s).1 = .error e → accesses es = []
  /-- Otherwise the bridge is asked for its identity, and one that does not tell a known
  one is left alone after that. -/
  refused : ∀ p, (Processor.query.run platform s).1 = .ok p →
    (∀ word, (bridgeAnswer platform s).1 = .ok word → ¬ NamesBridge word) →
    r = .error .unsupported ∧ accesses es = [⟨.readBridge 0, (bridgeAnswer platform s).1⟩]
  /-- Behind a known one comes the first transaction, and its answer alone tells whether
  the start succeeds. -/
  opened : ∀ p, (Processor.query.run platform s).1 = .ok p →
    ∀ word, (bridgeAnswer platform s).1 = .ok word → NamesBridge word →
    ∃ front rest,
      es = front ++
        (firstTransaction settings p).journal platform (whenBound platform s p) ++ rest ∧
      accesses front = [⟨.readBridge 0, .ok word⟩] ∧
      Admitted ((firstTransaction settings p).run platform (whenBound platform s p)).1 rest r
  /-- A start that fails has mapped nothing. -/
  unmapped : ∀ f, r = .error f → Unmapped es

end Driver

open Driver

/-- The first transaction, run after what comes before it, has the answer that the
version gate judges. -/
theorem admitted_of_version {answer : Except Failure Arguments} {rest : List Event}
    {r : Except Failure Driver} (hok : ∀ v, answer.bind Version.ofAnswer = .ok v → ∃ d, r = .ok d)
    (herror : ∀ f, answer.bind Version.ofAnswer = .error f → r = .error f ∧ accesses rest = []) :
    Admitted answer rest r := by
  cases answer with
  | error f => exact herror f rfl
  | ok words =>
    by_cases hlarge : 0xFF < words.word0
    · have hversion : Version.ofAnswer words = .ok ⟨words.word0⟩ :=
        if_neg (UInt32.not_le.2 hlarge)
      simp only [Admitted, if_pos hlarge]
      exact hok _ hversion
    · have hversion : Version.ofAnswer words = .error (.rejected .failed) :=
        if_pos (UInt32.not_lt.1 hlarge)
      simp only [Admitted, if_neg hlarge]
      exact herror _ hversion

section Named

variable {σ : Type} {platform : Platform σ} {s : σ} {settings : Settings} {p : Processor}
  {es : List Event} {r : Except Failure Driver}

/-- A processor that cannot be named ends the start. -/
theorem gated_of_unidentified {e : IdentityError}
    (hunnamed : (Processor.query.run platform s).1 = .error e) (hes : accesses es = [])
    (hunmapped : Unmapped es) : Gated platform s settings es (.error (.unidentified e)) := by
  refine ⟨?_, fun _ _ => hes, ?_, ?_, fun _ _ => hunmapped⟩
  · intro e'
    rw [hunnamed]
    simp
  · intro p hp
    cases hunnamed.symm.trans hp
  · intro p hp
    cases hunnamed.symm.trans hp

/-- A bridge that is not a known one ends the start. -/
theorem gated_of_refused (hnamed : (Processor.query.run platform s).1 = .ok p)
    (hunknown : ∀ word, (bridgeAnswer platform s).1 = .ok word → ¬ NamesBridge word)
    (hr : r = .error .unsupported)
    (hes : accesses es = [⟨.readBridge 0, (bridgeAnswer platform s).1⟩])
    (hunmapped : Unmapped es) : Gated platform s settings es r := by
  subst hr
  refine ⟨?_, ?_, fun _ _ _ => ⟨rfl, hes⟩, ?_, fun _ _ => hunmapped⟩
  · intro e
    rw [hnamed]
    simp
  · intro e he
    cases hnamed.symm.trans he
  · intro _ _ word hword hnames
    exact absurd hnames (hunknown word hword)

/-- Behind a known bridge, the start goes by the answer of the first transaction. -/
theorem gated_of_opened {word : UInt32} {es₀ rest : List Event}
    (hnamed : (Processor.query.run platform s).1 = .ok p)
    (hword : (bridgeAnswer platform s).1 = .ok word) (hknown : NamesBridge word)
    (haccesses : accesses es₀ = [])
    (hes : es = es₀ ++ ⟨.readBridge 0, .ok word⟩ :: ⟨.note (.mailboxesBound p.codename), ()⟩ ::
      ((firstTransaction settings p).journal platform (whenBound platform s p) ++ rest))
    (hend : Admitted ((firstTransaction settings p).run platform (whenBound platform s p)).1 rest r)
    (hidentified : ∀ e, r ≠ .error (.unidentified e))
    (hunmapped : ∀ f, r = .error f → Unmapped es) : Gated platform s settings es r := by
  refine ⟨?_, ?_, ?_, ?_, hunmapped⟩
  · intro e
    refine ⟨fun h => absurd h (hidentified e), fun h => ?_⟩
    cases hnamed.symm.trans h
  · intro e he
    cases hnamed.symm.trans he
  · intro _ _ hunknown
    exact absurd hknown (hunknown word hword)
  · intro p' hp' word' hword' _
    cases hnamed.symm.trans hp'
    cases hword.symm.trans hword'
    refine ⟨es₀ ++ [⟨.readBridge 0, .ok word⟩, ⟨.note (.mailboxesBound p.codename), ()⟩], rest,
      ?_, ?_, hend⟩
    · rw [hes, List.append_assoc, List.append_assoc]
      rfl
    · rw [accesses_append, haccesses]
      rfl

/-- Where the processor has a name and the bridge is asked, the replies are those of the
platform. -/
theorem answered_bridge {es₀ rest : List Event} {reply : Except BridgeFault UInt32} {s' : σ}
    (hquery : Processor.query.Reaches es₀ (.ok p))
    (hes : Answers platform s (es₀ ++ ⟨.readBridge 0, reply⟩ :: rest) s') :
    (Processor.query.run platform s).1 = .ok p ∧ (bridgeAnswer platform s).1 = reply ∧
      Answers platform (bridgeAnswer platform s).2 rest s' := by
  obtain ⟨-, hnamed, hrest⟩ := hquery.answered hes
  obtain ⟨hreply, hrest⟩ := hrest.uncons
  exact ⟨hnamed, hreply.symm, hrest⟩

/-- Where the first transaction is made, its events and its answer are those of its run
there. -/
theorem answered_transaction {fs rest : List Event} {v : Except Failure Version} {s' : σ}
    (hversion : ((mailboxesOf settings p).version .mp1).run.Reaches fs v)
    (hes : Answers platform (bridgeAnswer platform s).2
      (⟨.note (.mailboxesBound p.codename), ()⟩ :: (fs ++ rest)) s') :
    (firstTransaction settings p).journal platform (whenBound platform s p) = fs ∧
      v = ((firstTransaction settings p).run platform (whenBound platform s p)).1.bind
        Version.ofAnswer := by
  obtain ⟨answer, hanswer, rfl⟩ := Mailboxes.reaches_version hversion
  obtain ⟨hjournal, hrun, -⟩ := Program.Reaches.answered hanswer hes.uncons.2
  exact ⟨hjournal, by rw [← hrun]; rfl⟩

end Named

/-- However a platform answers, the gates make this of a start. -/
theorem start_gated {σ : Type} (platform : Platform σ) (s : σ) (settings : Settings) :
    Driver.Gated platform s settings ((Driver.start settings).run.journal platform s)
      ((Driver.start settings).run.run platform s).1 := by
  have hstart := reaches_start (Program.reaches_journal platform (Driver.start settings).run s)
  have hanswers : Answers platform s _ _ := .ofJournal (Driver.start settings).run s
  generalize (Driver.start settings).run.journal platform s = es at hstart hanswers ⊢
  generalize ((Driver.start settings).run.run platform s).1 = r at hstart ⊢
  generalize ((Driver.start settings).run.run platform s).2 = s' at hanswers
  cases hstart with
  | @unidentified _ e hquery =>
    rw [← List.append_nil es] at hanswers
    obtain ⟨-, hunnamed, -⟩ := hquery.answered hanswers
    obtain ⟨haccesses, hunmapped⟩ := quiet_of_query hquery
    exact gated_of_unidentified hunnamed haccesses hunmapped
  | @unreadable es p fault hquery =>
    obtain ⟨haccesses, hunmapped⟩ := quiet_of_query hquery
    obtain ⟨hnamed, hreply, -⟩ := answered_bridge hquery hanswers
    refine gated_of_refused hnamed ?_ rfl ?_ (hunmapped.append (by simp [Unmapped]))
    · intro word hword
      cases hreply.symm.trans hword
    · rw [accesses_append, haccesses, hreply]
      rfl
  | @unknown es p word hquery hword =>
    obtain ⟨haccesses, hunmapped⟩ := quiet_of_query hquery
    obtain ⟨hnamed, hreply, -⟩ := answered_bridge hquery hanswers
    refine gated_of_refused hnamed ?_ rfl ?_ (hunmapped.append (by simp [Unmapped]))
    · intro word' hword' hnames
      cases hreply.symm.trans hword'
      rw [← BridgeId.isKnown_ofWord, hword] at hnames
      cases hnames
    · rw [accesses_append, haccesses, hreply]
      rfl
  | @unversioned es fs p word f hquery hword hversion =>
    obtain ⟨haccesses, hunmapped⟩ := quiet_of_query hquery
    obtain ⟨hnamed, hreply, hrest⟩ := answered_bridge hquery hanswers
    obtain ⟨hjournal, hf⟩ := answered_transaction hversion hrest
    obtain ⟨hinquiry, hfailure⟩ := asks_version _ _ _ hversion
    have hknown := (BridgeId.isKnown_ofWord word).1 hword
    refine gated_of_opened hnamed hreply hknown haccesses (by rw [hjournal]) ?_ ?_ ?_
    · refine admitted_of_version ?_ ?_
      · intro v hv
        cases hf.trans hv
      · intro f' hf'
        cases hf.trans hf'
        exact ⟨rfl, rfl⟩
    · rintro e ⟨⟩
      cases hfailure _ rfl
    · intro _ _
      have hfs : Unmapped fs := fun e he => (hinquiry e he).unmapped
      refine hunmapped.append (List.forall_mem_cons.2 ⟨nofun, List.forall_mem_cons.2 ⟨nofun, ?_⟩⟩)
      exact hfs.append (by simp [Unmapped])
  | @started es fs gs p word v capabilities table hquery hword hversion hdetected =>
    obtain ⟨haccesses, -⟩ := quiet_of_query hquery
    obtain ⟨hnamed, hreply, hrest⟩ := answered_bridge hquery hanswers
    obtain ⟨hjournal, hv⟩ := answered_transaction hversion hrest
    have hknown := (BridgeId.isKnown_ofWord word).1 hword
    refine gated_of_opened hnamed hreply hknown haccesses (by rw [hjournal]) ?_ nofun nofun
    refine admitted_of_version (fun _ _ => ⟨_, rfl⟩) ?_
    intro f hf
    cases hv.trans hf

end ManagementUnit
